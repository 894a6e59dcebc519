/-
  QwenTtsBridge.Voice.PromptCache — the prompts that the Python worker keeps for its voices
  (`VoiceProfileRegistry.prompt_for` of `engine/voice_profiles.py`).

  The recordings, the model's prompt builder and `deepcopy` may answer anything at every
  call (`Machine`). `built` of a reply records the call of `_build_prompt`, for the
  statements.

  A shared or cloning call *uses* a voice when it found its prompt or built one, also when
  the copy of it fails afterwards. `prompt_cache_is_lru`: at every moment of every run the
  cache holds the last `max_cached_prompts` voices in use, in that order, and what a call
  returns comes from the profile it asked for. The policy `direct_reference` is refused
  before anything is looked up (`a_direct_reference_builds_nothing`).
-/

import QwenTtsBridge.Lib.Lru
import QwenTtsBridge.Python.Value

namespace QwenTtsBridge.Voice.PromptCache

open QwenTtsBridge.Lib QwenTtsBridge.Python

/-! ## Model -/

inductive VoicePromptPolicy where
  | shared
  | clonePerRequest
  | rebuildPerRequest
  | directReference
  deriving DecidableEq, Repr

inductive PromptFailure where
  | voiceProfileError (message : PyStr)
  /-- What the model or the file system raised. -/
  | raised (what : PyStr)
  deriving DecidableEq, Repr

/-- `sha256` is the digest of the recording when the registry was loaded. -/
structure VoiceProfile where
  voiceId : PyStr
  referenceAudioPath : PyStr
  referenceText : PyStr
  xVectorOnly : Bool
  sha256 : PyStr
  deriving DecidableEq, Repr

/-- What the files and the model answer during one call. -/
structure Machine (ρ π : Type) where
  /-- `preflight_reference_audio`: the digest of the recording. -/
  preflightReferenceAudio : PyStr → PyStr → Bool → Except PromptFailure PyStr
  promptReferenceAudio : VoiceProfile → Except PromptFailure ρ
  /-- `_voice_clone_prompt_builder(model)`, if that can be called. -/
  voiceClonePromptBuilder : Option (ρ → Option PyStr → Bool → Except PromptFailure π)
  deepcopy : π → Option π

structure PreparedVoiceProfile (π : Type) where
  profile : VoiceProfile
  prompt : π

structure VoiceProfileRegistry (π : Type) where
  profiles : OrderedDict PyStr VoiceProfile
  maxCachedPrompts : Nat
  prepared : OrderedDict PyStr (PreparedVoiceProfile π)
  positive : 0 < maxCachedPrompts

structure Reply (π : Type) where
  result : Except PromptFailure π
  /-- The profile that `_build_prompt` was called with and what it gave. -/
  built : Option (VoiceProfile × Except PromptFailure π)
  registry : VoiceProfileRegistry π

structure Call (ρ π : Type) where
  machine : Machine ρ π
  voiceId : PyStr
  policy : VoicePromptPolicy

variable {ρ π : Type}

def invalid {α : Type} (message : PyStr) : Except PromptFailure α := .error (.voiceProfileError message)

namespace Machine

variable (m : Machine ρ π)

def buildPrompt (profile : VoiceProfile) : Except PromptFailure π := do
  let sha256 ← m.preflightReferenceAudio profile.referenceAudioPath profile.referenceText profile.xVectorOnly
  if sha256 ≠ profile.sha256 then
    invalid (PyStr.lit "reference audio changed after registry load for voice_id: " ++ profile.voiceId)
  else
    match m.voiceClonePromptBuilder with
    | none => invalid (PyStr.lit "loaded Base model cannot create voice clone prompts")
    | some createPrompt => do
      let audio ← m.promptReferenceAudio profile
      createPrompt audio (if profile.referenceText.isEmpty then none else some profile.referenceText) profile.xVectorOnly

def clonePrompt (prompt : π) : Except PromptFailure π :=
  match m.deepcopy prompt with
  | some copy => .ok copy
  | none => invalid (PyStr.lit "voice prompt cannot be copied for clone_per_request diagnostics")

/-- The end of `prompt_for`, with the prompt of the cache. -/
def handOver (policy : VoicePromptPolicy) (prompt : π) : Except PromptFailure π :=
  if policy = .clonePerRequest then m.clonePrompt prompt else .ok prompt

end Machine

namespace VoiceProfileRegistry

/-- The constructor. -/
def make (profiles : OrderedDict PyStr VoiceProfile) (maxCachedPrompts : Int) :
    Except PromptFailure (VoiceProfileRegistry π) :=
  if h : maxCachedPrompts ≤ 0 then invalid (PyStr.lit "voice prompt cache limit must be greater than zero")
  else .ok ⟨profiles, maxCachedPrompts.toNat, .empty, by omega⟩

variable (registry : VoiceProfileRegistry π)

def profileFor (voiceId : PyStr) : Except PromptFailure VoiceProfile :=
  match registry.profiles.get? voiceId with
  | none => invalid (PyStr.lit "unknown voice profile: " ++ voiceId)
  | some profile => .ok profile

def promptFor (m : Machine ρ π) (voiceId : PyStr) (policy : VoicePromptPolicy) : Reply π :=
  if policy = .directReference then
    ⟨invalid (PyStr.lit "direct_reference does not prepare a reusable voice prompt"), none, registry⟩
  else
    match registry.profileFor voiceId with
    | .error e => ⟨.error e, none, registry⟩
    | .ok profile =>
      if policy = .rebuildPerRequest then
        ⟨m.buildPrompt profile, some (profile, m.buildPrompt profile), registry⟩
      else
        match registry.prepared.get? voiceId with
        | some prepared =>
          ⟨m.handOver policy prepared.prompt, none, { registry with prepared := registry.prepared.moveToEnd voiceId }⟩
        | none =>
          match m.buildPrompt profile with
          | .error e => ⟨.error e, some (profile, .error e), registry⟩
          | .ok prompt =>
            let prepared := (registry.prepared.set voiceId ⟨profile, prompt⟩).moveToEnd voiceId
            ⟨m.handOver policy prompt, some (profile, .ok prompt),
              { registry with prepared := prepared.evictTo registry.maxCachedPrompts }⟩

/-! ## Runs -/

def reply (call : Call ρ π) : Reply π := registry.promptFor call.machine call.voiceId call.policy

/-- The registry after the calls, in order. -/
def after (calls : List (Call ρ π)) : VoiceProfileRegistry π :=
  calls.foldl (fun r call => (r.reply call).registry) registry

def replies : VoiceProfileRegistry π → List (Call ρ π) → List (Reply π)
  | _, [] => []
  | registry, call :: calls => registry.reply call :: replies (registry.reply call).registry calls

/-- The call found the voice cached, or built its prompt. -/
def isUse (call : Call ρ π) : Bool :=
  (call.policy == .shared || call.policy == .clonePerRequest) &&
    ((registry.prepared.get? call.voiceId).isSome || (registry.reply call).built.any (·.2.isOk))

/-- The voices in use, oldest use first. -/
def uses : VoiceProfileRegistry π → List (Call ρ π) → List PyStr
  | _, [] => []
  | registry, call :: calls =>
    if registry.isUse call then call.voiceId :: uses (registry.reply call).registry calls
    else uses (registry.reply call).registry calls

end VoiceProfileRegistry

/-! ## What one call does -/

open VoiceProfileRegistry

variable {registry : VoiceProfileRegistry π} {call : Call ρ π} {calls : List (Call ρ π)} {history : List (Reply π)}

def Call.cached (call : Call ρ π) : Prop := call.policy = .shared ∨ call.policy = .clonePerRequest

/-- The answers to a call. -/
inductive Answer (registry : VoiceProfileRegistry π) (call : Call ρ π) : Reply π → Prop
  | direct {e : PromptFailure} : call.policy = .directReference → Answer registry call ⟨.error e, none, registry⟩
  | unknown {e : PromptFailure} : call.policy ≠ .directReference → registry.profiles.get? call.voiceId = none →
      Answer registry call ⟨.error e, none, registry⟩
  | rebuilt {profile : VoiceProfile} : call.policy = .rebuildPerRequest →
      registry.profiles.get? call.voiceId = some profile →
      Answer registry call
        ⟨call.machine.buildPrompt profile, some (profile, call.machine.buildPrompt profile), registry⟩
  | found {profile : VoiceProfile} {prepared : PreparedVoiceProfile π} : call.cached →
      registry.profiles.get? call.voiceId = some profile → registry.prepared.get? call.voiceId = some prepared →
      Answer registry call ⟨call.machine.handOver call.policy prepared.prompt, none,
        { registry with prepared := registry.prepared.moveToEnd call.voiceId }⟩
  | failed {profile : VoiceProfile} {e : PromptFailure} : call.cached →
      registry.profiles.get? call.voiceId = some profile → registry.prepared.get? call.voiceId = none →
      Answer registry call ⟨.error e, some (profile, .error e), registry⟩
  | built {profile : VoiceProfile} {prompt : π} : call.cached →
      registry.profiles.get? call.voiceId = some profile → registry.prepared.get? call.voiceId = none →
      Answer registry call ⟨call.machine.handOver call.policy prompt, some (profile, .ok prompt),
        { registry with
          prepared := ((registry.prepared.set call.voiceId ⟨profile, prompt⟩).moveToEnd call.voiceId).evictTo
            registry.maxCachedPrompts }⟩

theorem reply_answer (registry : VoiceProfileRegistry π) (call : Call ρ π) :
    Answer registry call (registry.reply call) := by
  unfold reply promptFor
  by_cases hdirect : call.policy = .directReference
  · rw [if_pos hdirect]
    exact .direct hdirect
  rw [if_neg hdirect]
  unfold profileFor
  cases hprofile : registry.profiles.get? call.voiceId with
  | none => exact .unknown hdirect hprofile
  | some profile =>
    dsimp only
    by_cases hrebuild : call.policy = .rebuildPerRequest
    · rw [if_pos hrebuild]
      exact .rebuilt hrebuild hprofile
    rw [if_neg hrebuild]
    have hcached : call.cached := by
      unfold Call.cached
      cases hpolicy : call.policy with
      | shared => exact .inl rfl
      | clonePerRequest => exact .inr rfl
      | rebuildPerRequest => exact absurd hpolicy hrebuild
      | directReference => exact absurd hpolicy hdirect
    cases hprepared : registry.prepared.get? call.voiceId with
    | some prepared => exact .found hcached hprofile hprepared
    | none =>
      dsimp only
      cases hbuild : call.machine.buildPrompt profile with
      | error e => exact .failed hcached hprofile hprepared
      | ok prompt => exact .built hcached hprofile hprepared

section Answers

variable {r : Reply π} (h : Answer registry call r)

include h

theorem Answer.profiles_eq : r.registry.profiles = registry.profiles := by
  cases h <;> rfl

theorem Answer.maxCachedPrompts_eq : r.registry.maxCachedPrompts = registry.maxCachedPrompts := by
  cases h <;> rfl

/-- A build is attempted for the profile of the voice, if that is known and not cached or the
    policy asks for it. -/
theorem Answer.built_isSome : r.built.isSome ↔ call.policy ≠ .directReference ∧
    (registry.profiles.get? call.voiceId).isSome ∧
    (registry.prepared.get? call.voiceId = none ∨ call.policy = .rebuildPerRequest) := by
  cases h with
  | direct hpolicy => simp [hpolicy]
  | unknown hpolicy hprofile => simp [hprofile]
  | rebuilt hpolicy hprofile => simp [hpolicy, hprofile]
  | found hcached hprofile hprepared =>
    rcases hcached with hpolicy | hpolicy <;> simp [hpolicy, hprepared]
  | failed hcached hprofile hprepared =>
    rcases hcached with hpolicy | hpolicy <;> simp [hpolicy, hprofile, hprepared]
  | built hcached hprofile hprepared =>
    rcases hcached with hpolicy | hpolicy <;> simp [hpolicy, hprofile, hprepared]

theorem Answer.of_failure {profile : VoiceProfile} {e : PromptFailure} (hbuilt : r.built = some (profile, .error e)) :
    r.registry = registry := by
  cases h with
  | rebuilt | failed => rfl
  | _ => cases hbuilt

end Answers

/-! ## The cache -/

/-- The history has a successful build from the profile. -/
def Built (history : List (Reply π)) (profile : VoiceProfile) (prompt : π) : Prop :=
  ∃ r ∈ history, r.built = some (profile, .ok prompt)

theorem Built.mono {profile : VoiceProfile} {prompt : π} {later : List (Reply π)} (h : Built history profile prompt) :
    Built (history ++ later) profile prompt := by
  obtain ⟨r, hr, hbuilt⟩ := h
  exact ⟨r, List.mem_append_left _ hr, hbuilt⟩

/-- What is cached for a voice was built from its profile. -/
def Sourced (registry : VoiceProfileRegistry π) (history : List (Reply π)) : Prop :=
  ∀ e ∈ registry.prepared.entries,
    registry.profiles.get? e.1 = some e.2.profile ∧ Built history e.2.profile e.2.prompt

theorem Sourced.reply (h : Sourced registry history) :
    Sourced (registry.reply call).registry (history ++ [registry.reply call]) := by
  have hanswer := reply_answer registry call
  generalize registry.reply call = r at hanswer
  cases hanswer with
  | direct | unknown | rebuilt | failed =>
    intro e he
    exact ⟨(h e he).1, (h e he).2.mono⟩
  | found =>
    intro e he
    have hold := h e (OrderedDict.mem_moveToEnd.mp he)
    exact ⟨hold.1, hold.2.mono⟩
  | built _ hprofile =>
    intro e he
    rcases OrderedDict.mem_set (OrderedDict.mem_moveToEnd.mp (OrderedDict.mem_evictTo he)) with hold | hnew
    · exact ⟨(h e hold).1, (h e hold).2.mono⟩
    · subst hnew
      exact ⟨hprofile, _, List.mem_append_right _ (List.mem_singleton_self _), rfl⟩

theorem Sourced.not_cached (h : Sourced registry history) {voiceId : PyStr}
    (hunknown : registry.profiles.get? voiceId = none) :
    registry.prepared.get? voiceId = none := by
  cases hprepared : registry.prepared.get? voiceId with
  | none => rfl
  | some prepared =>
    have hknown := (h _ (OrderedDict.mem_of_get? hprepared)).1
    rw [hunknown] at hknown
    cases hknown

/-- The keys follow the uses: one case for each answer. -/
theorem keys_reply {used : List PyStr} (hsourced : Sourced registry history)
    (h : registry.prepared.keys = Lru.recent registry.maxCachedPrompts used) :
    (registry.reply call).registry.prepared.keys =
      Lru.recent registry.maxCachedPrompts (if registry.isUse call then used ++ [call.voiceId] else used) := by
  have hanswer := reply_answer registry call
  unfold isUse
  generalize registry.reply call = r at hanswer
  cases hanswer with
  | direct hpolicy =>
    simp only [hpolicy]
    exact h
  | unknown hpolicy hprofile =>
    simp only [hsourced.not_cached hprofile, Option.isSome_none, Option.any_none, Bool.or_false, Bool.and_false]
    exact h
  | rebuilt hpolicy hprofile =>
    simp only [hpolicy]
    exact h
  | failed hcached hprofile hprepared =>
    simp only [hprepared, Option.isSome_none, Option.any_some, Except.isOk, Except.toBool, Bool.or_false, Bool.and_false]
    exact h
  | found hcached hprofile hprepared =>
    have hkey : call.voiceId ∈ registry.prepared.keys :=
      OrderedDict.get?_isSome.mp (by rw [hprepared]; rfl)
    dsimp only
    split
    · rw [OrderedDict.keys_moveToEnd hkey, h]
      rw [h] at hkey
      exact Lru.recent_touch hkey
    · rename_i hunused
      refine absurd ?_ hunused
      rcases hcached with hpolicy | hpolicy <;> simp [hpolicy, hprepared]
  | @built profile prompt hcached hprofile hprepared =>
    have hnew := OrderedDict.get?_eq_none.mp hprepared
    dsimp only
    split
    · rw [OrderedDict.keys_evictTo, OrderedDict.keys_add hnew, h]
      rw [h] at hnew
      exact Lru.recent_insert hnew
    · rename_i hunused
      refine absurd ?_ hunused
      rcases hcached with hpolicy | hpolicy <;> simp [hpolicy, Except.isOk, Except.toBool]

/-! ## Runs -/

theorem after_cons : registry.after (call :: calls) = (registry.reply call).registry.after calls := rfl

theorem after_profiles : (registry.after calls).profiles = registry.profiles := by
  induction calls generalizing registry with
  | nil => rfl
  | cons call calls ih => rw [after_cons, ih, (reply_answer registry call).profiles_eq]

theorem Sourced.after (h : Sourced registry history) :
    Sourced (registry.after calls) (history ++ registry.replies calls) := by
  induction calls generalizing registry history with
  | nil =>
    rw [replies, List.append_nil]
    exact h
  | cons call calls ih =>
    rw [after_cons, replies, List.append_cons]
    exact ih h.reply

theorem keys_after {used : List PyStr} (hsourced : Sourced registry history)
    (h : registry.prepared.keys = Lru.recent registry.maxCachedPrompts used) :
    (registry.after calls).prepared.keys = Lru.recent registry.maxCachedPrompts (used ++ registry.uses calls) := by
  induction calls generalizing registry history used with
  | nil =>
    rw [uses, List.append_nil]
    exact h
  | cons call calls ih =>
    have hmax := (reply_answer registry call).maxCachedPrompts_eq
    have hstep : (registry.reply call).registry.prepared.keys = _ := keys_reply hsourced h
    rw [← hmax] at hstep
    rw [after_cons, ih hsourced.reply hstep, hmax, uses]
    split
    · rw [List.append_assoc]
      rfl
    · rfl

/-! ## The cache is an LRU -/

/-- The prompt was built from the profile, or is a copy of one that was. -/
def ComesFrom (history : List (Reply π)) (m : Machine ρ π) (profile : VoiceProfile) (prompt : π) : Prop :=
  Built history profile prompt ∨ ∃ original, Built history profile original ∧ m.clonePrompt original = .ok prompt

theorem handOver_comesFrom {m : Machine ρ π} {policy : VoicePromptPolicy} {profile : VoiceProfile} {original prompt : π}
    (hbuilt : Built history profile original) (h : m.handOver policy original = .ok prompt) :
    ComesFrom history m profile prompt := by
  unfold Machine.handOver at h
  split at h
  · exact .inr ⟨original, hbuilt, h⟩
  · cases h
    exact .inl hbuilt

theorem reply_comesFrom (hsourced : Sourced registry history) {prompt : π}
    (h : (registry.reply call).result = .ok prompt) :
    ∃ profile, registry.profiles.get? call.voiceId = some profile ∧
      ComesFrom (history ++ [registry.reply call]) call.machine profile prompt := by
  have hanswer := reply_answer registry call
  generalize registry.reply call = r at hanswer h
  cases hanswer with
  | direct | unknown | failed => cases h
  | rebuilt _ hprofile =>
    dsimp only at h
    refine ⟨_, hprofile, .inl ⟨_, List.mem_append_right _ (List.mem_singleton_self _), ?_⟩⟩
    rw [h]
  | found _ hprofile hprepared =>
    obtain ⟨hknown, hbuilt⟩ := hsourced _ (OrderedDict.mem_of_get? hprepared)
    exact ⟨_, hknown, handOver_comesFrom hbuilt.mono h⟩
  | built _ hprofile _ =>
    refine ⟨_, hprofile, handOver_comesFrom ?_ h⟩
    exact ⟨_, List.mem_append_right _ (List.mem_singleton_self _), rfl⟩

/-- What holds of the next call, whichever it is. -/
structure Served (registry : VoiceProfileRegistry π) (history : List (Reply π)) (call : Call ρ π) : Prop where
  source : ∀ prompt, (registry.reply call).result = .ok prompt →
    ∃ profile, registry.profiles.get? call.voiceId = some profile ∧
      ComesFrom (history ++ [registry.reply call]) call.machine profile prompt
  attempted : (registry.reply call).built.isSome ↔ call.policy ≠ .directReference ∧
    (registry.profiles.get? call.voiceId).isSome ∧
    (call.voiceId ∉ registry.prepared.keys ∨ call.policy = .rebuildPerRequest)
  unchanged : ∀ profile e, (registry.reply call).built = some (profile, .error e) →
    (registry.reply call).registry = registry

theorem prompt_cache_is_lru {profiles : OrderedDict PyStr VoiceProfile} {limit : Int} {registry : VoiceProfileRegistry π}
    (hmake : make profiles limit = .ok registry) (calls : List (Call ρ π)) :
    (registry.after calls).prepared.keys = Lru.recent limit.toNat (registry.uses calls) ∧
    (registry.after calls).prepared.length = min limit.toNat (registry.uses calls).dedup.length ∧
    (registry.after calls).profiles = profiles ∧
    ∀ call : Call ρ π, Served (registry.after calls) (registry.replies calls) call := by
  obtain ⟨hprofiles, hmax, hempty⟩ : registry.profiles = profiles ∧ registry.maxCachedPrompts = limit.toNat ∧
      registry.prepared = .empty := by
    unfold make at hmake
    split at hmake
    · cases hmake
    · cases hmake
      exact ⟨rfl, rfl, rfl⟩
  have hsourced : Sourced registry [] := by
    intro e he
    rw [hempty] at he
    cases he
  have hkeys : registry.prepared.keys = Lru.recent registry.maxCachedPrompts [] := by
    rw [hempty]
    exact (List.rtake_nil _).symm
  have hafter : (registry.after calls).prepared.keys = _ := keys_after hsourced hkeys
  rw [hmax, List.nil_append] at hafter
  refine ⟨hafter, ?_, after_profiles.trans hprofiles, fun call => ?_⟩
  · rw [← OrderedDict.length_keys, hafter, Lru.length_recent]
  · have hanswer := reply_answer (registry.after calls) call
    refine ⟨fun prompt hresult => reply_comesFrom hsourced.after hresult, ?_,
      fun profile e hbuilt => hanswer.of_failure hbuilt⟩
    rw [hanswer.built_isSome, OrderedDict.get?_eq_none]

/-! ### Two calls -/

def twoVoices : OrderedDict PyStr VoiceProfile :=
  ⟨[(PyStr.lit "a", ⟨PyStr.lit "a", PyStr.lit "a.wav", PyStr.lit "hi", false, []⟩),
    (PyStr.lit "b", ⟨PyStr.lit "b", PyStr.lit "b.wav", PyStr.lit "hi", false, []⟩)], by decide⟩

/-- A builder whose prompt is the text, with recordings that do not change. -/
def plainMachine : Machine Unit PyStr where
  preflightReferenceAudio _ _ _ := .ok []
  promptReferenceAudio _ := .ok ()
  voiceClonePromptBuilder := some fun _ text _ => .ok (text.getD [])
  deepcopy := some

def callFor (voiceId : String) (policy : VoicePromptPolicy) : Call Unit PyStr := ⟨plainMachine, PyStr.lit voiceId, policy⟩

def oneSlot : VoiceProfileRegistry PyStr := ⟨twoVoices, 1, .empty, by decide⟩

theorem the_second_voice_replaces_the_first :
    (oneSlot.after [callFor "a" .shared, callFor "b" .clonePerRequest]).prepared.keys = [PyStr.lit "b"] := by
  have hmake : make twoVoices 1 = .ok oneSlot := by
    unfold make
    rw [dif_neg (by decide)]
    rfl
  have hcache := (prompt_cache_is_lru hmake [callFor "a" .shared, callFor "b" .clonePerRequest]).1
  have hrecent : Lru.recent (1 : Int).toNat (oneSlot.uses [callFor "a" .shared, callFor "b" .clonePerRequest]) =
      [PyStr.lit "b"] := by decide +kernel
  exact hcache.trans hrecent

/-- The voice is known and not cached, and still nothing is built. -/
theorem a_direct_reference_builds_nothing :
    ¬ ((oneSlot.reply (callFor "a" .directReference)).built.isSome ↔
      (oneSlot.profiles.get? (PyStr.lit "a")).isSome ∧
        (PyStr.lit "a" ∉ oneSlot.prepared.keys ∨ (callFor "a" .directReference).policy = .rebuildPerRequest)) := by
  decide +kernel

end QwenTtsBridge.Voice.PromptCache
