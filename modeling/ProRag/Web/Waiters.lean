import ProRag.Framework.Waiting
import ProRag.Web.Typewriter

/-!
# The waiters of the typewriter

The refs of the typewriter under its callbacks, which may come in any order.  What an animation frame writes into the
message is with the page.
-/

namespace ProRag

open Framework

/-- The refs, the animation frames that the browser holds, and the promises of `waitForTypewriter` by their numbers. -/
structure Typewriter where
  target : JsString := []
  shown : ℚ := 0
  lastTs : ℚ := 0
  raf : Option Nat := none
  doneResolver : Option Nat := none
  frames : List Nat := []
  handles : Nat := 0
  waiters : Nat := 0
  resolved : List Nat := []
deriving DecidableEq

inductive TypewriterMove
  | push (t : JsString)
  | frame (handle : Nat) (ts : ℚ)
  | wait
  | finish
  | reset
deriving DecidableEq

namespace Typewriter

def hidden (tw : Typewriter) : ℚ := tw.target.length - tw.shown

/-- `rafRef.current = requestAnimationFrame(drain)`. -/
def requestFrame (tw : Typewriter) : Typewriter :=
  { tw with raf := some tw.handles, frames := tw.frames ++ [tw.handles], handles := tw.handles + 1 }

/-- `cancelAnimationFrame(rafRef.current)`, and the ref is cleared. -/
def cancelFrame (tw : Typewriter) : Typewriter :=
  { tw with raf := none, frames := tw.frames.filter fun handle => tw.raf ≠ some handle }

/-- `doneResolverRef.current?.()`, and the ref is cleared. -/
def release (tw : Typewriter) : Typewriter :=
  { tw with resolved := tw.resolved ++ tw.doneResolver.toList, doneResolver := none }

/-- `pushText(t)`. -/
def pushText (tw : Typewriter) (t : JsString) : Typewriter :=
  let tw := { tw with target := tw.target ++ t }
  if tw.raf = none then { tw with lastTs := 0 }.requestFrame else tw

/-- `waitForTypewriter()`, which makes the next promise. -/
def waitForTypewriter (tw : Typewriter) : Typewriter :=
  let made := { tw with waiters := tw.waiters + 1 }
  if (tw.target.length : ℚ) ≤ tw.shown then { made with resolved := tw.resolved ++ [tw.waiters] }
  else { made with doneResolver := some tw.waiters }

/-- `finishTypewriter()`. -/
def finishTypewriter (tw : Typewriter) : Typewriter :=
  { tw.cancelFrame with lastTs := 0, shown := tw.target.length }.release

/-- What `sendMessage` does to the refs when it starts. -/
def reset (tw : Typewriter) : Typewriter := { tw with target := [], shown := 0 }

section

variable (fl : ℚ → ℚ)

/-- The characters that an animation frame shows. -/
def reveal (tw : Typewriter) (ts : ℚ) : ℚ :=
  ChatPage.reveal fl { target := tw.target, shown := tw.shown, lastTs := tw.lastTs } ts

/-- `drain(ts)`. -/
def drain (tw : Typewriter) (ts : ℚ) : Typewriter :=
  let tw := { tw with raf := none }
  if (tw.target.length : ℚ) ≤ tw.shown then { tw with lastTs := 0 }.release
  else { tw with lastTs := ts, shown := tw.reveal fl ts }.requestFrame

/-- One callback; an animation frame is one that the browser holds. -/
def step (tw : Typewriter) : TypewriterMove → Option Typewriter
  | .push t => some (tw.pushText t)
  | .frame handle ts => if handle ∈ tw.frames then some ({ tw with frames := tw.frames.erase handle }.drain fl ts) else none
  | .wait => some tw.waitForTypewriter
  | .finish => some tw.finishTypewriter
  | .reset => some tw.reset

end

def Opened (tw : Typewriter) : Prop := tw = {}

/-- What holds of the refs between the callbacks. -/
structure Sound (tw : Typewriter) : Prop where
  shown : tw.shown ≤ tw.target.length
  ref : tw.frames = tw.raf.toList
  typing : tw.shown < tw.target.length → tw.frames ≠ []
  waiting : tw.doneResolver ≠ none → tw.frames ≠ []

/-- No waiter that is registered loses its place to another. -/
def KeepsWaiter (tw : Typewriter) : TypewriterMove → Prop
  | .wait => tw.shown < tw.target.length → tw.doneResolver = none
  | _ => True

instance (tw : Typewriter) : (move : TypewriterMove) → Decidable (KeepsWaiter tw move)
  | .wait => inferInstanceAs (Decidable (tw.shown < tw.target.length → tw.doneResolver = none))
  | .push _ | .frame _ _ | .finish | .reset => isTrue trivial

def Releases (tw : Typewriter) : TypewriterMove → Prop
  | .frame _ _ => (tw.target.length : ℚ) ≤ tw.shown
  | .finish => True
  | _ => False

/-- What a callback does to the resolver and to the promises. -/
inductive Resolving (tw tw' : Typewriter) (move : TypewriterMove) : Prop
  | keeps (hmove : move ≠ .wait ∧ ¬ Releases tw move) (hslot : tw'.doneResolver = tw.doneResolver)
      (hresolved : tw'.resolved = tw.resolved) (hwaiters : tw'.waiters = tw.waiters)
  | releases (hmove : Releases tw move) (hslot : tw'.doneResolver = none)
      (hresolved : tw'.resolved = tw.resolved ++ tw.doneResolver.toList) (hwaiters : tw'.waiters = tw.waiters)
  | resolves (hmove : move = .wait) (hslot : tw'.doneResolver = tw.doneResolver)
      (hresolved : tw'.resolved = tw.resolved ++ [tw.waiters]) (hwaiters : tw'.waiters = tw.waiters + 1)
  | registers (hmove : move = .wait) (hhidden : tw.shown < tw.target.length) (hslot : tw'.doneResolver = some tw.waiters)
      (hresolved : tw'.resolved = tw.resolved) (hwaiters : tw'.waiters = tw.waiters + 1)

variable {fl : ℚ → ℚ} {tw tw' : Typewriter} {w : Nat}

/-! ## The invariant -/

theorem Sound.raf (h : Sound tw) : tw.frames ≠ [] ↔ tw.raf ≠ none := by
  rw [h.ref]
  cases tw.raf <;> simp

theorem requestFrame_frames (tw : Typewriter) (h : tw.frames = tw.raf.toList) (hraf : tw.raf = none) :
    tw.requestFrame.frames = tw.requestFrame.raf.toList ∧ tw.requestFrame.frames ≠ [] := by
  simp [requestFrame, h, hraf]

theorem cancelFrame_frames (h : tw.frames = tw.raf.toList) : tw.cancelFrame.frames = [] := by
  unfold cancelFrame
  cases hraf : tw.raf with
  | none => simp [h, hraf]
  | some handle => simp [h, hraf]

theorem frame_drains {handle : Nat} {ts : ℚ} (hstep : tw.step fl (.frame handle ts) = some tw') :
    handle ∈ tw.frames ∧ tw' = { tw with frames := tw.frames.erase handle }.drain fl ts := by
  by_cases hmem : handle ∈ tw.frames
  · simp only [step, if_pos hmem, Option.some.injEq] at hstep
    exact ⟨hmem, hstep.symm⟩
  · simp [step, hmem] at hstep

theorem pushText_text (tw : Typewriter) (t : JsString) :
    (tw.pushText t).target = tw.target ++ t ∧ (tw.pushText t).shown = tw.shown := by
  unfold pushText
  by_cases hraf : tw.raf = none
  · rw [if_pos hraf]
    exact ⟨rfl, rfl⟩
  · rw [if_neg hraf]
    exact ⟨rfl, rfl⟩

theorem waitForTypewriter_text (tw : Typewriter) : tw.waitForTypewriter.target = tw.target ∧
    tw.waitForTypewriter.shown = tw.shown ∧ tw.waitForTypewriter.lastTs = tw.lastTs := by
  unfold waitForTypewriter
  by_cases hall : (tw.target.length : ℚ) ≤ tw.shown
  · rw [if_pos hall]
    exact ⟨rfl, rfl, rfl⟩
  · rw [if_neg hall]
    exact ⟨rfl, rfl, rfl⟩

theorem reveal_le (tw : Typewriter) (ts : ℚ) : tw.reveal fl ts ≤ tw.target.length := min_le_left _ _

theorem pushText_sound (h : Sound tw) (t : JsString) : Sound (tw.pushText t) := by
  have hlonger : (tw.target.length : ℚ) ≤ (tw.target ++ t).length := by simp
  have hshown := h.shown.trans hlonger
  unfold pushText
  by_cases hraf : tw.raf = none
  · rw [if_pos hraf]
    obtain ⟨hframes, hsome⟩ := requestFrame_frames { tw with target := tw.target ++ t, lastTs := 0 } h.ref hraf
    exact ⟨hshown, hframes, fun _ => hsome, fun _ => hsome⟩
  · rw [if_neg hraf]
    have hsome := h.raf.mpr hraf
    exact ⟨hshown, h.ref, fun _ => hsome, fun _ => hsome⟩

theorem waitForTypewriter_sound (h : Sound tw) : Sound tw.waitForTypewriter := by
  unfold waitForTypewriter
  by_cases hshown : (tw.target.length : ℚ) ≤ tw.shown
  · rw [if_pos hshown]
    exact ⟨h.shown, h.ref, h.typing, h.waiting⟩
  · rw [if_neg hshown]
    exact ⟨h.shown, h.ref, h.typing, fun _ => h.typing (not_le.mp hshown)⟩

theorem finishTypewriter_sound (h : Sound tw) : Sound tw.finishTypewriter := by
  have hnone : tw.finishTypewriter.frames = [] := cancelFrame_frames h.ref
  constructor
  · exact le_rfl
  · rw [hnone]
    rfl
  · intro hlt
    exact absurd hlt (lt_irrefl _)
  · intro hwaiting
    exact absurd rfl hwaiting

theorem reset_sound (h : Sound tw) : Sound tw.reset := by
  constructor
  · simp [reset]
  · exact h.ref
  · simp [reset]
  · exact h.waiting

theorem Sound.called (h : Sound tw) {handle : Nat} (hmem : handle ∈ tw.frames) : tw.frames.erase handle = [] := by
  rw [h.ref] at hmem ⊢
  cases hraf : tw.raf with
  | none => simp [hraf] at hmem
  | some r =>
    rw [hraf] at hmem
    obtain rfl : handle = r := by simpa using hmem
    simp

theorem drain_sound (tw : Typewriter) (hshown : tw.shown ≤ tw.target.length) (hframes : tw.frames = []) (ts : ℚ) :
    Sound (tw.drain fl ts) := by
  unfold drain
  by_cases hall : (tw.target.length : ℚ) ≤ tw.shown
  · rw [if_pos hall]
    constructor
    · exact hshown
    · exact hframes
    · intro hlt
      exact absurd hall (not_le.mpr hlt)
    · intro hwaiting
      exact absurd rfl hwaiting
  · rw [if_neg hall]
    obtain ⟨hnext, hsome⟩ :=
      requestFrame_frames { tw with raf := none, lastTs := ts, shown := tw.reveal fl ts } hframes rfl
    exact ⟨reveal_le tw ts, hnext, fun _ => hsome, fun _ => hsome⟩

theorem step_sound (h : Sound tw) {move : TypewriterMove} (hstep : tw.step fl move = some tw') : Sound tw' := by
  cases move with
  | push t =>
    obtain rfl := Option.some.inj hstep
    exact pushText_sound h t
  | frame handle ts =>
    obtain ⟨hmem, rfl⟩ := frame_drains hstep
    exact drain_sound { tw with frames := tw.frames.erase handle } h.shown (h.called hmem) ts
  | wait =>
    obtain rfl := Option.some.inj hstep
    exact waitForTypewriter_sound h
  | finish =>
    obtain rfl := Option.some.inj hstep
    exact finishTypewriter_sound h
  | reset =>
    obtain rfl := Option.some.inj hstep
    exact reset_sound h

theorem opened_sound : Sound {} := by
  constructor <;> simp

/-! ## The waiters -/

theorem step_resolving {move : TypewriterMove} (hstep : tw.step fl move = some tw') : Resolving tw tw' move := by
  cases move with
  | push t =>
    obtain rfl := Option.some.inj hstep
    unfold pushText
    by_cases hraf : tw.raf = none
    · rw [if_pos hraf]
      exact .keeps (by simp [Releases]) rfl rfl rfl
    · rw [if_neg hraf]
      exact .keeps (by simp [Releases]) rfl rfl rfl
  | frame handle ts =>
    obtain ⟨_, rfl⟩ := frame_drains hstep
    unfold drain
    by_cases hall : (tw.target.length : ℚ) ≤ tw.shown
    · rw [if_pos hall]
      exact .releases hall rfl rfl rfl
    · rw [if_neg hall]
      exact .keeps (by simpa [Releases] using hall) rfl rfl rfl
  | wait =>
    obtain rfl := Option.some.inj hstep
    unfold waitForTypewriter
    by_cases hall : (tw.target.length : ℚ) ≤ tw.shown
    · rw [if_pos hall]
      exact .resolves rfl rfl rfl rfl
    · rw [if_neg hall]
      exact .registers rfl (not_le.mp hall) rfl rfl rfl
  | finish =>
    obtain rfl := Option.some.inj hstep
    exact .releases trivial rfl rfl rfl
  | reset =>
    obtain rfl := Option.some.inj hstep
    exact .keeps (by simp [Releases]) rfl rfl rfl

theorem Resolving.resolved {move : TypewriterMove} (h : Resolving tw tw' move) (hw : w ∈ tw.resolved) :
    w ∈ tw'.resolved := by
  cases h with
  | keeps _ _ hresolved => rwa [hresolved]
  | releases _ _ hresolved => rw [hresolved]; exact List.mem_append_left _ hw
  | resolves _ _ hresolved => rw [hresolved]; exact List.mem_append_left _ hw
  | registers _ _ _ hresolved => rwa [hresolved]

theorem Resolving.waiter {move : TypewriterMove} (h : Resolving tw tw' move) (hkeeps : KeepsWaiter tw move)
    (hw : tw.doneResolver = some w) :
    (Releases tw move ∧ w ∈ tw'.resolved) ∨ (¬ Releases tw move ∧ tw'.doneResolver = some w) := by
  cases h with
  | keeps hmove hslot => exact Or.inr ⟨hmove.2, hslot.trans hw⟩
  | releases hmove _ hresolved =>
    refine Or.inl ⟨hmove, ?_⟩
    simp [hresolved, hw]
  | resolves hmove hslot =>
    subst hmove
    exact Or.inr ⟨id, hslot.trans hw⟩
  | registers hmove hhidden =>
    subst hmove
    have hnone := hkeeps hhidden
    simp [hw] at hnone

/-- A waiter that has lost its place is never resolved. -/
theorem Resolving.lost {move : TypewriterMove} (h : Resolving tw tw' move)
    (hlost : w < tw.waiters ∧ w ∉ tw.resolved ∧ tw.doneResolver ≠ some w) :
    w < tw'.waiters ∧ w ∉ tw'.resolved ∧ tw'.doneResolver ≠ some w := by
  obtain ⟨hmade, hunresolved, hslot⟩ := hlost
  cases h with
  | keeps _ hslot' hresolved hwaiters =>
    rw [hwaiters, hresolved, hslot']
    exact ⟨hmade, hunresolved, hslot⟩
  | releases _ hslot' hresolved hwaiters =>
    rw [hwaiters, hresolved, hslot']
    refine ⟨hmade, ?_, by simp⟩
    simpa [hunresolved] using hslot
  | resolves _ hslot' hresolved hwaiters =>
    rw [hwaiters, hresolved, hslot']
    refine ⟨by omega, ?_, hslot⟩
    simp only [List.mem_append, List.mem_singleton, hunresolved, false_or]
    omega
  | registers _ _ hslot' hresolved hwaiters =>
    rw [hwaiters, hresolved, hslot']
    refine ⟨by omega, hunresolved, ?_⟩
    simp only [ne_eq, Option.some.injEq]
    omega

theorem Resolving.accounted {move : TypewriterMove} (h : Resolving tw tw' move) (hkeeps : KeepsWaiter tw move)
    (hall : ∀ w < tw.waiters, w ∈ tw.resolved ∨ tw.doneResolver = some w) :
    ∀ w < tw'.waiters, w ∈ tw'.resolved ∨ tw'.doneResolver = some w := by
  intro w hw
  by_cases hmade : w < tw.waiters
  · rcases hall w hmade with hresolved | hslot
    · exact Or.inl (h.resolved hresolved)
    · rcases h.waiter hkeeps hslot with ⟨_, hresolved⟩ | ⟨_, hslot⟩
      · exact Or.inl hresolved
      · exact Or.inr hslot
  · cases h with
    | keeps _ _ _ hwaiters => omega
    | releases _ _ _ hwaiters => omega
    | resolves _ _ hresolved hwaiters =>
      obtain rfl : w = tw.waiters := by omega
      simp [hresolved]
    | registers _ _ hslot _ hwaiters =>
      obtain rfl : w = tw.waiters := by omega
      exact Or.inr hslot

/-! ## Time -/

/-- What the typewriter needs of the rounding of doubles. -/
structure Rounding (fl : ℚ → ℚ) : Prop where
  mono : ∀ x y, x ≤ y → fl x ≤ fl y
  again : ∀ x, fl (fl x) = fl x
  exact : ∀ k : ℕ, k ≤ 2 ^ 53 → fl (k / 2 ^ 13) = k / 2 ^ 13

theorem rounding_id : Rounding id where
  mono := fun _ _ h => h
  again := fun _ => rfl
  exact := fun _ _ => rfl

/-- Animation frames come at times that grow by a millisecond or more, and the text stays within what strings hold. -/
def Spaced (tw : Typewriter) : TypewriterMove → Prop
  | .push t => (tw.target ++ t).length ≤ 2 ^ 39
  | .frame _ ts => 0 < ts ∧ (tw.lastTs ≠ 0 → tw.lastTs + 1 ≤ ts)
  | _ => True

instance (tw : Typewriter) : (move : TypewriterMove) → Decidable (Spaced tw move)
  | .push t => inferInstanceAs (Decidable ((tw.target ++ t).length ≤ 2 ^ 39))
  | .frame _ ts => inferInstanceAs (Decidable (0 < ts ∧ (tw.lastTs ≠ 0 → tw.lastTs + 1 ≤ ts)))
  | .wait | .finish | .reset => isTrue trivial

/-- What holds of the refs when the animation frames are spaced. -/
structure Typed (fl : ℚ → ℚ) (tw : Typewriter) : Prop where
  sound : Sound tw
  nonneg : 0 ≤ tw.shown
  rounded : fl tw.shown = tw.shown
  short : tw.target.length ≤ 2 ^ 39

theorem frame_reveals (hhidden : ¬ (tw.target.length : ℚ) ≤ tw.shown) {handle : Nat} {ts : ℚ}
    (hstep : tw.step fl (.frame handle ts) = some tw') :
    tw'.target = tw.target ∧ tw'.shown = tw.reveal fl ts ∧ tw'.lastTs = ts := by
  obtain ⟨_, rfl⟩ := frame_drains hstep
  rw [drain, if_neg hhidden]
  exact ⟨rfl, rfl, rfl⟩

section

variable (hr : Rounding fl) {ts : ℚ}

include hr

theorem Rounding.fraction (k : ℕ) {x : ℚ} (hk : k ≤ 2 ^ 53) (hx : x = k / 2 ^ 13) : fl x = x := by
  rw [hx]
  exact hr.exact k hk

theorem Rounding.natCast {n : ℕ} (hn : n ≤ 2 ^ 39) : fl n = n := by
  apply hr.fraction (n * 2 ^ 13)
  · omega
  · push_cast
    norm_num

theorem reveal_speed (tw : Typewriter) (ts : ℚ) : ∃ cps, 20 ≤ cps ∧ tw.reveal fl ts = min (tw.target.length : ℚ)
    (fl (tw.shown + fl (cps * (if tw.lastTs = 0 then 0 else min (fl (fl (ts - tw.lastTs) / 1000)) (1 / 4))))) := by
  refine ⟨_, ?_, rfl⟩
  have hzero : fl 0 = 0 := hr.fraction 0 (by norm_num) (by norm_num)
  have hslowest : fl 20 = 20 := hr.fraction 163840 (by norm_num) (by norm_num)
  have hnonneg : ∀ x, 0 ≤ x → 0 ≤ fl x := fun x hx => hzero ▸ hr.mono 0 x hx
  have hramp : 0 ≤ min 1 (fl (max 0 ((tw.target.length : ℚ) - 400) / (2500 - 400))) := by
    apply le_min zero_le_one
    apply hnonneg
    apply div_nonneg (le_max_left _ _)
    norm_num
  have hcps : 20 ≤ fl (20 + fl (min 1 (fl (max 0 ((tw.target.length : ℚ) - 400) / (2500 - 400))) * (110 - 20))) := by
    have hmore := hnonneg _ (mul_nonneg hramp (by norm_num : (0 : ℚ) ≤ 110 - 20))
    calc (20 : ℚ) = fl 20 := hslowest.symm
      _ ≤ _ := hr.mono _ _ (by linarith)
  apply le_min
  · split
    · exact hcps.trans (le_max_left _ _)
    · exact hcps
  · norm_num

theorem reveal_first (h : Typed fl tw) (hfirst : tw.lastTs = 0) : tw.reveal fl ts = tw.shown := by
  obtain ⟨cps, _, hreveal⟩ := reveal_speed hr tw ts
  have hzero : fl 0 = 0 := hr.fraction 0 (by norm_num) (by norm_num)
  rw [hreveal, if_pos hfirst, mul_zero, hzero, add_zero, h.rounded]
  exact min_eq_right h.sound.shown

theorem reveal_next (h : Typed fl tw) (hlast : tw.lastTs ≠ 0) (hts : tw.lastTs + 1 ≤ ts) :
    min (tw.target.length : ℚ) (tw.shown + 1 / 128) ≤ tw.reveal fl ts := by
  obtain ⟨cps, hcps, hreveal⟩ := reveal_speed hr tw ts
  rw [hreveal, if_neg hlast]
  have hdt : 1 / 1024 ≤ min (fl (fl (ts - tw.lastTs) / 1000)) (1 / 4) := by
    have hsecond : fl 1 = 1 := hr.fraction 8192 (by norm_num) (by norm_num)
    have hpart : fl (1 / 1024) = 1 / 1024 := hr.fraction 8 (by norm_num) (by norm_num)
    have hdiff : 1 ≤ fl (ts - tw.lastTs) := hsecond ▸ hr.mono _ _ (by linarith)
    apply le_min
    · calc (1 : ℚ) / 1024 = fl (1 / 1024) := hpart.symm
        _ ≤ _ := hr.mono _ _ (by linarith)
    · norm_num
  have hgain : 1 / 64 ≤ fl (cps * min (fl (fl (ts - tw.lastTs) / 1000)) (1 / 4)) := by
    have hpart : fl (1 / 64) = 1 / 64 := hr.fraction 128 (by norm_num) (by norm_num)
    calc (1 : ℚ) / 64 = fl (1 / 64) := hpart.symm
      _ ≤ _ := hr.mono _ _ (by nlinarith)
  -- a fraction that doubles hold lies close below the sum
  have hbelow : tw.shown + 1 / 128 ≤ fl (tw.shown + 1 / 64) := by
    have hsum : 0 ≤ (tw.shown + 1 / 64) * 2 ^ 13 := by linarith [h.nonneg]
    have hshown : tw.shown ≤ 2 ^ 39 := h.sound.shown.trans (by exact_mod_cast h.short)
    have hfloor := Nat.floor_le hsum
    have hnext := Nat.lt_floor_add_one ((tw.shown + 1 / 64) * 2 ^ 13)
    have hsmall : ⌊(tw.shown + 1 / 64) * 2 ^ 13⌋₊ ≤ 2 ^ 53 := by
      have hbound : (⌊(tw.shown + 1 / 64) * 2 ^ 13⌋₊ : ℚ) ≤ 2 ^ 53 := by linarith
      exact_mod_cast hbound
    calc tw.shown + 1 / 128 ≤ (⌊(tw.shown + 1 / 64) * 2 ^ 13⌋₊ : ℚ) / 2 ^ 13 := by linarith
      _ = fl ((⌊(tw.shown + 1 / 64) * 2 ^ 13⌋₊ : ℚ) / 2 ^ 13) := (hr.exact _ hsmall).symm
      _ ≤ fl (tw.shown + 1 / 64) := hr.mono _ _ (by linarith)
  exact min_le_min le_rfl (hbelow.trans (hr.mono _ _ (by linarith)))

theorem reveal_rounded (h : Typed fl tw) : fl (tw.reveal fl ts) = tw.reveal fl ts := by
  obtain ⟨cps, _, hreveal⟩ := reveal_speed hr tw ts
  rw [hreveal]
  rcases min_choice (tw.target.length : ℚ) (fl _) with hall | hpart
  · rw [hall, hr.natCast h.short]
  · rw [hpart, hr.again]

theorem shown_le_reveal (h : Typed fl tw) (hspaced : 0 < ts ∧ (tw.lastTs ≠ 0 → tw.lastTs + 1 ≤ ts)) :
    tw.shown ≤ tw.reveal fl ts := by
  by_cases hfirst : tw.lastTs = 0
  · rw [reveal_first hr h hfirst]
  · refine le_trans (le_min h.sound.shown ?_) (reveal_next hr h hfirst (hspaced.2 hfirst))
    linarith

theorem step_typed (h : Typed fl tw) {move : TypewriterMove} (hspaced : Spaced tw move)
    (hstep : tw.step fl move = some tw') : Typed fl tw' := by
  have hsound := step_sound h.sound hstep
  cases move with
  | push t =>
    obtain rfl := Option.some.inj hstep
    obtain ⟨htarget, hshown⟩ := pushText_text tw t
    constructor
    · exact hsound
    · rw [hshown]
      exact h.nonneg
    · rw [hshown]
      exact h.rounded
    · rw [htarget]
      exact hspaced
  | frame handle ts =>
    by_cases hall : (tw.target.length : ℚ) ≤ tw.shown
    · obtain ⟨_, rfl⟩ := frame_drains hstep
      rw [drain, if_pos hall] at hsound ⊢
      exact ⟨hsound, h.nonneg, h.rounded, h.short⟩
    · obtain ⟨htarget, hshown, _⟩ := frame_reveals hall hstep
      constructor
      · exact hsound
      · rw [hshown]
        exact h.nonneg.trans (shown_le_reveal hr h hspaced)
      · rw [hshown]
        exact reveal_rounded hr h
      · rw [htarget]
        exact h.short
  | wait =>
    obtain rfl := Option.some.inj hstep
    obtain ⟨htarget, hshown, _⟩ := waitForTypewriter_text tw
    constructor
    · exact hsound
    · rw [hshown]
      exact h.nonneg
    · rw [hshown]
      exact h.rounded
    · rw [htarget]
      exact h.short
  | finish =>
    obtain rfl := Option.some.inj hstep
    exact ⟨hsound, Nat.cast_nonneg _, hr.natCast h.short, h.short⟩
  | reset =>
    obtain rfl := Option.some.inj hstep
    exact ⟨hsound, le_rfl, hr.fraction 0 (by norm_num) (by norm_num [reset]), Nat.zero_le _⟩

end

/-- What some hidden text owes, counted in animation frames; the one that shows the last of it may have had little to do. -/
def owed (x : ℚ) : ℚ := 128 * x - if x ≤ 0 then 1 else 0

/-- What a waiter has still to wait for, counted in animation frames; the first one only takes the time. -/
def due (tw : Typewriter) : ℚ := owed tw.hidden + if tw.lastTs = 0 then 1 else 0

def turn : TypewriterMove → ℚ
  | .frame _ _ => 1
  | _ => 0

def typing : TypewriterMove → ℚ
  | .push t => 128 * t.length + 1
  | _ => 0

theorem owed_bounds (x : ℚ) : 128 * x - 1 ≤ owed x ∧ owed x ≤ 128 * x := by
  unfold owed
  constructor
  · split <;> linarith
  · split <;> linarith

theorem owed_nonpos {x : ℚ} (hx : x ≤ 0) : owed x = 128 * x - 1 := by rw [owed, if_pos hx]

theorem owed_pos {x : ℚ} (hx : 0 < x) : owed x = 128 * x := by rw [owed, if_neg (not_le.mpr hx), sub_zero]

theorem hidden_nonneg (h : Sound tw) : 0 ≤ tw.hidden := sub_nonneg.mpr h.shown

theorem due_bounds (h : Sound tw) : -1 ≤ tw.due ∧ tw.due ≤ 128 * tw.hidden + 1 := by
  have hhidden := hidden_nonneg h
  obtain ⟨hlow, hhigh⟩ := owed_bounds tw.hidden
  unfold due
  constructor
  · split <;> linarith
  · split <;> linarith

/-- A callback that does not call the resolver is paid for. -/
theorem step_due (hr : Rounding fl) (h : Typed fl tw) {move : TypewriterMove} (hspaced : Spaced tw move)
    (hwaiting : tw.doneResolver ≠ none) (hreleases : ¬ Releases tw move) (hstep : tw.step fl move = some tw') :
    tw'.due + turn move ≤ tw.due + typing move := by
  cases move with
  | push t =>
    obtain rfl := Option.some.inj hstep
    have hraf : tw.raf ≠ none := h.sound.raf.mp (h.sound.waiting hwaiting)
    have hhidden : (tw.pushText t).hidden = tw.hidden + t.length := by
      rw [hidden, hidden, (pushText_text tw t).1, (pushText_text tw t).2]
      push_cast [List.length_append]
      ring
    have hlast : (tw.pushText t).lastTs = tw.lastTs := by rw [pushText, if_neg hraf]
    have howed := (owed_bounds (tw.hidden + t.length)).2
    have hbefore := (owed_bounds tw.hidden).1
    simp only [due, turn, typing, hhidden, hlast]
    linarith
  | frame handle ts =>
    have hall : ¬ (tw.target.length : ℚ) ≤ tw.shown := hreleases
    obtain ⟨htarget, hshown, hlast⟩ := frame_reveals hall hstep
    have hpos : 0 < tw.hidden := sub_pos.mpr (not_le.mp hall)
    have hafter : tw'.hidden = tw.target.length - tw.reveal fl ts := by rw [hidden, htarget, hshown]
    simp only [due, turn, typing, hlast, if_neg hspaced.1.ne', owed_pos hpos, add_zero]
    by_cases hfirst : tw.lastTs = 0
    · have hsame : tw'.hidden = tw.hidden := by rw [hafter, reveal_first hr h hfirst, hidden]
      rw [if_pos hfirst, hsame, owed_pos hpos]
    · rw [if_neg hfirst, add_zero]
      by_cases hmore : 0 < tw'.hidden
      · rw [owed_pos hmore]
        have hless : tw.reveal fl ts < tw.target.length := by linarith
        have hgain : tw.shown + 1 / 128 ≤ tw.reveal fl ts := by
          rcases min_le_iff.mp (reveal_next hr h hfirst (hspaced.2 hfirst)) with hfull | hpart
          · exact absurd hless (not_lt.mpr hfull)
          · exact hpart
        have hbefore : tw.hidden = tw.target.length - tw.shown := rfl
        linarith
      · rw [owed_nonpos (not_lt.mp hmore)]
        linarith
  | wait =>
    obtain rfl := Option.some.inj hstep
    obtain ⟨htarget, hshown, hlast⟩ := waitForTypewriter_text tw
    have hsame : tw.waitForTypewriter.due = tw.due := by rw [due, due, hidden, hidden, htarget, hshown, hlast]
    rw [hsame]
    exact le_rfl
  | finish => exact absurd trivial hreleases
  | reset =>
    obtain rfl := Option.some.inj hstep
    have hempty : tw.reset.hidden = 0 := by simp [reset, hidden]
    have hbefore : -1 ≤ owed tw.hidden := by linarith [(owed_bounds tw.hidden).1, hidden_nonneg h.sound]
    simp only [due, turn, typing, hempty, owed_nonpos le_rfl]
    have hlast : tw.reset.lastTs = tw.lastTs := rfl
    rw [hlast]
    linarith

/-! ## No waiter hangs -/

/-- What becomes of a registered waiter that no later one replaces. -/
structure Awaited (fl : ℚ → ℚ) (tw : Typewriter) (w : Nat) : Prop where
  next : ∀ move tw', KeepsWaiter tw move → tw.step fl move = some tw' →
    (Releases tw move ∧ w ∈ tw'.resolved) ∨ (¬ Releases tw move ∧ tw'.doneResolver = some w)
  run : ∀ moves tw', Guarded (step fl) KeepsWaiter tw moves → runSteps (step fl) tw moves = some tw' →
    w ∈ tw'.resolved ∨ (tw'.doneResolver = some w ∧ tw'.frames ≠ [] ∧ .finish ∉ moves)
  timely : Rounding fl → Reaches (step fl) Spaced Opened tw →
    ∀ moves tw', Guarded (step fl) (fun s move => Spaced s move ∧ KeepsWaiter s move) tw moves →
      runSteps (step fl) tw moves = some tw' →
      w ∈ tw'.resolved ∨ (moves.map turn).sum ≤ 128 * tw.hidden + 2 + (moves.map typing).sum

theorem reaches_sound {guard : Typewriter → TypewriterMove → Prop} (h : Reaches (step fl) guard Opened tw) : Sound tw := by
  refine h.invariant Sound ?_ fun s move s' hs _ hstep => step_sound hs hstep
  intro s hs
  rw [hs]
  exact opened_sound

theorem reaches_typed (hr : Rounding fl) (h : Reaches (step fl) Spaced Opened tw) : Typed fl tw := by
  refine h.invariant (Typed fl) ?_ fun s move s' hs hspaced hstep => step_typed hr hs hspaced hstep
  intro s hs
  rw [hs]
  exact ⟨opened_sound, le_rfl, hr.fraction 0 (by norm_num) (by norm_num), Nat.zero_le _⟩

theorem awaits_run (hsound : Sound tw) (hw : tw.doneResolver = some w) {moves : List TypewriterMove}
    (hguard : Guarded (step fl) KeepsWaiter tw moves) (hrun : runSteps (step fl) tw moves = some tw') :
    w ∈ tw'.resolved ∨ (tw'.doneResolver = some w ∧ tw'.frames ≠ [] ∧ .finish ∉ moves) := by
  have hawaits := Guarded.awaits (fun s => Sound s ∧ s.doneResolver = some w) (fun s => w ∈ s.resolved)
    (fun move => move ≠ .finish) (fun _ => (0 : ℚ)) (fun _ => 0) (fun _ => 0)
    (fun s move s' hs hstep => (step_resolving hstep).resolved hs) ?_ ⟨hsound, hw⟩ hguard hrun
  · rcases hawaits with hcome | ⟨⟨hsound', hslot⟩, hall, _⟩
    · exact Or.inl hcome
    · refine Or.inr ⟨hslot, hsound'.waiting (by simp [hslot]), fun hmem => ?_⟩
      exact hall _ hmem rfl
  · intro s move s' hs hkeeps hstep
    rcases (step_resolving hstep).waiter hkeeps hs.2 with ⟨_, hcome⟩ | ⟨hnot, hslot⟩
    · exact Or.inl hcome
    · refine Or.inr ⟨⟨step_sound hs.1 hstep, hslot⟩, ?_, le_rfl⟩
      rintro rfl
      exact hnot trivial

theorem awaits_timely (hr : Rounding fl) (htyped : Typed fl tw) (hw : tw.doneResolver = some w)
    {moves : List TypewriterMove}
    (hguard : Guarded (step fl) (fun s move => Spaced s move ∧ KeepsWaiter s move) tw moves)
    (hrun : runSteps (step fl) tw moves = some tw') :
    w ∈ tw'.resolved ∨ (moves.map turn).sum ≤ 128 * tw.hidden + 2 + (moves.map typing).sum := by
  have hawaits := Guarded.awaits (fun s => Typed fl s ∧ s.doneResolver = some w) (fun s => w ∈ s.resolved)
    (fun _ => True) due turn typing
    (fun s move s' hs hstep => (step_resolving hstep).resolved hs) ?_ ⟨htyped, hw⟩ hguard hrun
  · rcases hawaits with hcome | ⟨⟨htyped', _⟩, _, hpaid⟩
    · exact Or.inl hcome
    · have hbefore := (due_bounds htyped.sound).2
      have hafter := (due_bounds htyped'.sound).1
      exact Or.inr (by linarith)
  · intro s move s' hs hmove hstep
    rcases (step_resolving hstep).waiter hmove.2 hs.2 with ⟨_, hcome⟩ | ⟨hnot, hslot⟩
    · exact Or.inl hcome
    · have hpaid := step_due hr hs.1 hmove.1 (by simp [hs.2]) hnot hstep
      exact Or.inr ⟨⟨step_typed hr hs.1 hmove.1 hstep, hslot⟩, trivial, hpaid⟩

theorem reaches_accounted (h : Reaches (step fl) KeepsWaiter Opened tw) :
    ∀ w < tw.waiters, w ∈ tw.resolved ∨ tw.doneResolver = some w := by
  refine h.invariant (fun s => ∀ w < s.waiters, w ∈ s.resolved ∨ s.doneResolver = some w) ?_ ?_
  · intro s hs w hw
    rw [hs] at hw
    exact absurd hw (Nat.not_lt_zero w)
  · intro s move s' hs hkeeps hstep
    exact (step_resolving hstep).accounted hkeeps hs

end Typewriter

/-- The typewriter's refs are sound after any callbacks, and a waiter that is registered has an animation frame that
resolves it in the end. -/
theorem typewriter_never_hangs {fl : ℚ → ℚ} {tw : Typewriter}
    (h : Reaches (Typewriter.step fl) unguarded Typewriter.Opened tw) :
    tw.Sound ∧ tw.frames.length ≤ 1 ∧
      (tw.waitForTypewriter.doneResolver = some tw.waiters ∨ tw.waiters ∈ tw.waitForTypewriter.resolved) ∧
      ∀ w, tw.doneResolver = some w → tw.Awaited fl w := by
  have hsound := Typewriter.reaches_sound h
  refine ⟨hsound, ?_, ?_, fun w hw => ?_⟩
  · rw [hsound.ref]
    cases tw.raf <;> simp
  · unfold Typewriter.waitForTypewriter
    by_cases hall : (tw.target.length : ℚ) ≤ tw.shown
    · rw [if_pos hall]
      simp
    · rw [if_neg hall]
      simp
  · constructor
    · intro move tw' hkeeps hstep
      exact (Typewriter.step_resolving hstep).waiter hkeeps hw
    · intro moves tw' hguard hrun
      exact Typewriter.awaits_run hsound hw hguard hrun
    · intro hr hspaced moves tw' hguard hrun
      exact Typewriter.awaits_timely hr (Typewriter.reaches_typed hr hspaced) hw hguard hrun

/-- Two letters, and a waiter for them. -/
def awaitedRun : List TypewriterMove := [.push (jsLiteral "Hi"), .wait]

def awaitedTypewriter : Typewriter :=
  { target := jsLiteral "Hi", raf := some 0, doneResolver := some 0, frames := [0], handles := 1, waiters := 1 }

theorem awaitedRun_typewriter : runSteps (Typewriter.step id) {} awaitedRun = some awaitedTypewriter := by decide +kernel

theorem typewriter_never_hangs_typed : awaitedTypewriter.frames ≠ [] ∧
    (∃ tw, runSteps (Typewriter.step id) awaitedTypewriter [.frame 0 16, .finish] = some tw ∧ 0 ∈ tw.resolved) ∧
    ∃ tw, runSteps (Typewriter.step id) awaitedTypewriter [.frame 0 16] = some tw ∧
      (0 ∈ tw.resolved ∨ (1 : ℚ) ≤ 128 * awaitedTypewriter.hidden + 2) := by
  have hreach := reaches_of_runSteps (show Typewriter.Opened {} from rfl) awaitedRun_typewriter
  obtain ⟨hsound, _, _, hwaits⟩ := typewriter_never_hangs hreach
  have hawaited := hwaits 0 rfl
  refine ⟨hsound.waiting (by decide), ?_, ?_⟩
  · have hsome : (runSteps (Typewriter.step id) awaitedTypewriter [.frame 0 16, .finish]).isSome = true := by decide +kernel
    obtain ⟨tw, hrun⟩ := Option.isSome_iff_exists.mp hsome
    have hguard : Guarded (Typewriter.step id) Typewriter.KeepsWaiter awaitedTypewriter [.frame 0 16, .finish] := by
      decide +kernel
    refine ⟨tw, hrun, ?_⟩
    rcases hawaited.run _ tw hguard hrun with hresolved | ⟨_, _, hfinish⟩
    · exact hresolved
    · exact absurd (by simp) hfinish
  · have hsome : (runSteps (Typewriter.step id) awaitedTypewriter [.frame 0 16]).isSome = true := by decide +kernel
    obtain ⟨tw, hrun⟩ := Option.isSome_iff_exists.mp hsome
    have hspaced : Guarded (Typewriter.step id) Typewriter.Spaced {} awaitedRun := by decide +kernel
    have htyped : Reaches (Typewriter.step id) Typewriter.Spaced Typewriter.Opened awaitedTypewriter :=
      (Reaches.start (show Typewriter.Opened {} from rfl)).runSteps hspaced awaitedRun_typewriter
    have hguard : Guarded (Typewriter.step id) (fun s move => Typewriter.Spaced s move ∧ Typewriter.KeepsWaiter s move)
        awaitedTypewriter [.frame 0 16] := by decide +kernel
    refine ⟨tw, hrun, ?_⟩
    simpa [Typewriter.turn, Typewriter.typing] using hawaited.timely Typewriter.rounding_id htyped _ tw hguard hrun

/-- A second waiter takes the place of the first, which no callback resolves any more. -/
theorem replaced_waiter_hangs : ∃ tw, Reaches (Typewriter.step id) unguarded Typewriter.Opened tw ∧
    0 < tw.waiters ∧ ∀ moves tw', runSteps (Typewriter.step id) tw moves = some tw' → 0 ∉ tw'.resolved := by
  have hend : (runSteps (Typewriter.step id) {} (awaitedRun ++ [.wait])).map
      (fun tw => (tw.waiters, tw.resolved, tw.doneResolver)) = some (2, [], some 1) := by decide +kernel
  obtain ⟨tw, hrun, hfields⟩ := Option.map_eq_some_iff.mp hend
  simp only [Prod.mk.injEq] at hfields
  obtain ⟨hmade, hresolved, hslot⟩ := hfields
  refine ⟨tw, reaches_of_runSteps rfl hrun, by omega, fun moves tw' hmoves => ?_⟩
  have hlost : 0 < tw.waiters ∧ 0 ∉ tw.resolved ∧ tw.doneResolver ≠ some 0 := by simp [hmade, hresolved, hslot]
  exact (runSteps_kept (fun s move s' hs hstep => (Typewriter.step_resolving hstep).lost hs) hlost hmoves).2.1

/-! ## The page -/

namespace Typewriter

structure Mirrors (page : ChatPage) (tw : Typewriter) : Prop where
  target : tw.target = page.target
  shown : tw.shown = page.shown
  lastTs : tw.lastTs = page.lastTs
  raf : tw.raf.isSome = page.raf
  waiting : tw.doneResolver.isSome = page.waiting

/-- The page awaits its typewriter exactly while it reveals an answer. -/
def AwaitsReveal (page : ChatPage) : Prop := page.waiting = true ↔ page.phase = .revealing

section

variable {fl : ℚ → ℚ} {tw tw' : Typewriter} {page page' : ChatPage}

/-- A page's event as callbacks of its typewriter, none of which replaces a waiter. -/
def Follows (fl : ℚ → ℚ) (tw : Typewriter) (page' : ChatPage) : Prop :=
  ∃ moves tw', Guarded (step fl) KeepsWaiter tw moves ∧ runSteps (step fl) tw moves = some tw' ∧ Mirrors page' tw'

theorem Follows.idle (h : Mirrors page' tw) : Follows fl tw page' := ⟨[], tw, trivial, rfl, h⟩

theorem Follows.single (move : TypewriterMove) (hkeeps : KeepsWaiter tw move) (hstep : tw.step fl move = some tw')
    (h : Mirrors page' tw') : Follows fl tw page' :=
  ⟨[move], tw', ⟨hkeeps, fun _ _ => trivial⟩, by simp [runSteps, hstep], h⟩

theorem Mirrors.patched (h : Mirrors page tw) (fn : ChatMessage → ChatMessage) : Mirrors (page.patch fn) tw :=
  ⟨h.target, h.shown, h.lastTs, h.raf, h.waiting⟩

theorem Mirrors.ended (h : Mirrors page tw) : Mirrors page.endSend tw := ⟨h.target, h.shown, h.lastTs, h.raf, h.waiting⟩

theorem Mirrors.pushText (h : Mirrors page tw) (t : JsString) : Mirrors (page.pushText t) (tw.pushText t) := by
  unfold Typewriter.pushText ChatPage.pushText
  by_cases hraf : tw.raf = none
  · have hpage : page.raf = false := by rw [← h.raf, hraf]; rfl
    simp only [hraf, hpage, if_true, Bool.false_eq_true, if_false]
    exact ⟨by rw [← h.target]; rfl, h.shown, rfl, rfl, h.waiting⟩
  · have hpage : page.raf = true := by
      rw [← h.raf]
      exact Option.isSome_iff_ne_none.mpr hraf
    simp only [hraf, hpage, if_true, if_false]
    exact ⟨by rw [← h.target], h.shown, h.lastTs, h.raf.trans hpage, h.waiting⟩

theorem Mirrors.finishTypewriter (h : Mirrors page tw) : Mirrors page.finishTypewriter tw.finishTypewriter := by
  constructor
  · exact h.target
  · show (tw.target.length : ℚ) = page.target.length
    rw [h.target]
  · rfl
  · rfl
  · rfl

theorem Mirrors.waitForTypewriter (h : Mirrors page tw) (hshown : (page.target.length : ℚ) ≤ page.shown) :
    Mirrors page tw.waitForTypewriter := by
  rw [Typewriter.waitForTypewriter, if_pos (by rw [h.target, h.shown]; exact hshown)]
  exact ⟨h.target, h.shown, h.lastTs, h.raf, h.waiting⟩

theorem Mirrors.drain (fl : ℚ → ℚ) (h : Mirrors page tw) (frames : List Nat) (ts : ℚ) :
    Mirrors (page.drain fl ts) ({ tw with frames := frames }.drain fl ts) := by
  unfold Typewriter.drain ChatPage.drain
  have hreveal : Typewriter.reveal fl { tw with frames := frames, raf := none } ts = page.reveal fl ts := by
    simp only [Typewriter.reveal, ChatPage.reveal, h.target, h.shown, h.lastTs]
  by_cases hall : (page.target.length : ℚ) ≤ page.shown
  · have hall' : (tw.target.length : ℚ) ≤ tw.shown := by rw [h.target, h.shown]; exact hall
    simp only [if_pos hall, if_pos hall']
    exact ⟨h.target, h.shown, rfl, rfl, rfl⟩
  · have hall' : ¬ (tw.target.length : ℚ) ≤ tw.shown := by rw [h.target, h.shown]; exact hall
    simp only [if_neg hall, if_neg hall', hreveal]
    exact ⟨h.target, rfl, rfl, rfl, h.waiting⟩

theorem AwaitsReveal.other (h : AwaitsReveal page) (hphase : page.phase ≠ .revealing) : page.waiting = false :=
  Bool.eq_false_of_not_eq_true fun hwaiting => hphase (h.mp hwaiting)

theorem AwaitsReveal.of_false (hwaiting : page.waiting = false) (hphase : page.phase ≠ .revealing) : AwaitsReveal page := by
  simp [AwaitsReveal, hwaiting, hphase]

theorem pushText_phase (page : ChatPage) (t : JsString) :
    (page.pushText t).phase = page.phase ∧ (page.pushText t).waiting = page.waiting := by
  unfold ChatPage.pushText
  by_cases hraf : page.raf = true
  · simp [hraf]
  · simp [hraf]

theorem drain_phase (fl : ℚ → ℚ) (page : ChatPage) (ts : ℚ) : (page.drain fl ts).phase = page.phase ∧
    ((page.drain fl ts).waiting = page.waiting ∨ (page.drain fl ts).waiting = false) := by
  unfold ChatPage.drain
  by_cases hall : (page.target.length : ℚ) ≤ page.shown
  · simp [hall]
  · simp [hall, ChatPage.patch]

theorem animate_follows (h : Mirrors page tw) (hsound : Sound tw) (hawaits : AwaitsReveal page) {ts : ℚ}
    (hstep : page.step fl (.animate ts) = some page') : Follows fl tw page' ∧ AwaitsReveal page' := by
  by_cases hraf : page.raf = true
  · simp only [ChatPage.step, hraf, if_true, Option.some.injEq] at hstep
    subst hstep
    obtain ⟨handle, hhandle⟩ := Option.isSome_iff_exists.mp (h.raf.trans hraf)
    have hmem : handle ∈ tw.frames := by simp [hsound.ref, hhandle]
    have hdrain : tw.step fl (.frame handle ts) = some ({ tw with frames := tw.frames.erase handle }.drain fl ts) :=
      if_pos hmem
    have hmirrors := h.drain fl (tw.frames.erase handle) ts
    obtain ⟨hphase, hwaits⟩ := drain_phase fl page ts
    by_cases hcalled : (page.waiting && !(page.drain fl ts).waiting) = true
    · rw [if_pos hcalled]
      have hnone : (page.drain fl ts).waiting = false := by simpa using (Bool.and_eq_true_iff.mp hcalled).2
      refine ⟨.single (.frame handle ts) trivial hdrain (hmirrors.patched _).ended, .of_false hnone ?_⟩
      simp [ChatPage.complete, ChatPage.endSend]
    · rw [if_neg hcalled]
      refine ⟨.single (.frame handle ts) trivial hdrain hmirrors, ?_⟩
      have hsame : (page.drain fl ts).waiting = page.waiting := by
        rcases hwaits with hsame | hnone
        · exact hsame
        · simp only [hnone, Bool.not_false, Bool.and_true, Bool.not_eq_true] at hcalled
          rw [hnone, hcalled]
      unfold AwaitsReveal
      rw [hsame, hphase]
      exact hawaits
  · simp [ChatPage.step, hraf] at hstep

theorem close_follows (h : Mirrors page tw) (hwaiting : page.waiting = false) :
    Follows fl tw page.closeStream ∧ AwaitsReveal page.closeStream := by
  unfold ChatPage.closeStream
  by_cases hfailed : page.failed = true
  · rw [if_pos hfailed]
    refine ⟨.single .finish trivial rfl h.finishTypewriter.ended, .of_false rfl ?_⟩
    simp [ChatPage.endSend]
  · rw [if_neg hfailed]
    have hnone : tw.doneResolver = none := by
      rw [← Option.isNone_iff_eq_none, ← Option.isSome_eq_false_iff, h.waiting, hwaiting]
    by_cases hall : (page.target.length : ℚ) ≤ page.shown
    · rw [if_pos hall]
      refine ⟨.single .wait (fun _ => hnone) rfl ((h.waitForTypewriter hall).patched _).ended, .of_false hwaiting ?_⟩
      simp [ChatPage.complete, ChatPage.endSend]
    · rw [if_neg hall]
      have hall' : ¬ (tw.target.length : ℚ) ≤ tw.shown := by rw [h.target, h.shown]; exact hall
      refine ⟨.single .wait (fun _ => hnone) rfl ?_, by simp [AwaitsReveal]⟩
      rw [Typewriter.waitForTypewriter, if_neg hall']
      exact ⟨h.target, h.shown, h.lastTs, h.raf, rfl⟩

/-- What a page does is what its typewriter does, and no waiter loses its place. -/
theorem page_follows (h : Mirrors page tw) (hsound : Sound tw) (hawaits : AwaitsReveal page) {a : PageEvent}
    (hstep : page.step fl a = some page') : Follows fl tw page' ∧ AwaitsReveal page' := by
  have hfinish : ∀ failure, Follows fl tw (page.failStream failure) ∧ AwaitsReveal (page.failStream failure) := by
    intro failure
    refine ⟨.single .finish trivial rfl (h.finishTypewriter.patched _).ended, .of_false rfl ?_⟩
    simp [ChatPage.failStream, ChatPage.endSend]
  cases a with
  | send =>
    by_cases hphase : page.phase = .idle
    · simp only [ChatPage.step, hphase, if_true, Option.some.injEq] at hstep
      subst hstep
      have hnone := hawaits.other (by simp [hphase])
      refine ⟨.single .reset trivial rfl ⟨rfl, rfl, h.lastTs, h.raf, h.waiting⟩, .of_false hnone ?_⟩
      simp [ChatPage.startSend]
    · simp [ChatPage.step, hphase] at hstep
  | frame f =>
    by_cases hphase : page.phase = .streaming
    · simp only [ChatPage.step, hphase, if_true, Option.some.injEq] at hstep
      subst hstep
      have hnone := hawaits.other (by simp [hphase])
      cases f with
      | token t =>
        have hraw : Mirrors { page with raw := page.raw ++ t } tw := ⟨h.target, h.shown, h.lastTs, h.raf, h.waiting⟩
        refine ⟨.single (.push t) trivial rfl ((hraw.pushText t).patched _), ?_⟩
        obtain ⟨hphase', hwaiting'⟩ := pushText_phase { page with raw := page.raw ++ t } t
        have hother : (page.onFrame (.token t)).phase ≠ .revealing := by
          rw [show (page.onFrame (.token t)).phase = .streaming from hphase'.trans hphase]
          simp
        exact .of_false (hwaiting'.trans hnone) hother
      | _ =>
        refine ⟨.idle ⟨h.target, h.shown, h.lastTs, h.raf, h.waiting⟩, .of_false hnone ?_⟩
        simp [ChatPage.onFrame, ChatPage.patch, ChatPage.patchThinking, hphase]
    · simp [ChatPage.step, hphase] at hstep
  | animate ts => exact animate_follows h hsound hawaits hstep
  | tick elapsedMs =>
    by_cases htimer : page.elapsedTimer = true
    · simp only [ChatPage.step, htimer, if_true, Option.some.injEq] at hstep
      subst hstep
      exact ⟨.idle ⟨h.target, h.shown, h.lastTs, h.raf, h.waiting⟩, hawaits⟩
    · simp [ChatPage.step, htimer] at hstep
  | rerank =>
    by_cases htimer : page.rerankTimer = true
    · simp only [ChatPage.step, htimer, if_true, Option.some.injEq] at hstep
      subst hstep
      exact ⟨.idle ⟨h.target, h.shown, h.lastTs, h.raf, h.waiting⟩, hawaits⟩
    · simp [ChatPage.step, htimer] at hstep
  | stop =>
    by_cases hphase : page.phase = .streaming
    · simp only [ChatPage.step, hphase, if_true, Option.some.injEq] at hstep
      subst hstep
      exact hfinish .aborted
    · simp only [ChatPage.step, hphase, if_false, Option.some.injEq] at hstep
      subst hstep
      exact ⟨.idle h, hawaits⟩
  | close =>
    by_cases hphase : page.phase = .streaming
    · simp only [ChatPage.step, hphase, if_true, Option.some.injEq] at hstep
      subst hstep
      exact close_follows h (hawaits.other (by simp [hphase]))
    · simp [ChatPage.step, hphase] at hstep
  | fail failure =>
    by_cases hphase : page.phase = .streaming
    · simp only [ChatPage.step, hphase, if_true, Option.some.injEq] at hstep
      subst hstep
      exact hfinish failure
    · simp [ChatPage.step, hphase] at hstep

end

end Typewriter

/-- In every run of the page its typewriter never hangs, and no waiter loses its place to another. -/
theorem page_never_hangs {fl : ℚ → ℚ} {page : ChatPage}
    (h : Reaches (ChatPage.step fl) unguarded (fun start => start = {}) page) :
    (page.shown < page.target.length → page.raf = true) ∧ (page.phase = .revealing → page.raf = true) ∧
      ∃ tw, Typewriter.Mirrors page tw ∧ ∀ w < tw.waiters, w ∈ tw.resolved ∨ tw.doneResolver = some w := by
  have hmirrors : ∃ tw, Reaches (Typewriter.step fl) Typewriter.KeepsWaiter Typewriter.Opened tw ∧
      Typewriter.Mirrors page tw ∧ Typewriter.AwaitsReveal page := by
    refine h.invariant (fun p => ∃ tw, Reaches (Typewriter.step fl) Typewriter.KeepsWaiter Typewriter.Opened tw ∧
      Typewriter.Mirrors p tw ∧ Typewriter.AwaitsReveal p) ?_ ?_
    · intro start hstart
      rw [hstart]
      exact ⟨{}, .start rfl, ⟨rfl, rfl, rfl, rfl, rfl⟩, by simp [Typewriter.AwaitsReveal]⟩
    · intro p a p' hp _ hstep
      obtain ⟨tw, hreach, hmirrors, hawaits⟩ := hp
      obtain ⟨⟨moves, tw', hguard, hrun, hmirrors'⟩, hawaits'⟩ :=
        Typewriter.page_follows hmirrors (Typewriter.reaches_sound hreach) hawaits hstep
      exact ⟨tw', hreach.runSteps hguard hrun, hmirrors', hawaits'⟩
  obtain ⟨tw, hreach, hmirrors, hawaits⟩ := hmirrors
  have hsound := Typewriter.reaches_sound hreach
  have hqueued : tw.frames ≠ [] → page.raf = true := by
    intro hframes
    rw [← hmirrors.raf]
    exact Option.isSome_iff_ne_none.mpr (hsound.raf.mp hframes)
  refine ⟨fun hhidden => hqueued (hsound.typing ?_), fun hreveal => hqueued (hsound.waiting ?_), tw, hmirrors,
    Typewriter.reaches_accounted hreach⟩
  · rw [hmirrors.target, hmirrors.shown]
    exact hhidden
  · exact Option.isSome_iff_ne_none.mp (hmirrors.waiting.trans (hawaits.mpr hreveal))

end ProRag
