/-
  QwenTtsBridge.Voice.CleanUp — what a publication leaves behind that fails before it commits
  (`persist_prepared_voice_reference` of `prepared_voice_reference.cpp`).

  `untilCommit` is a publication up to the rename of the manifest. Whichever of its steps
  fails, the `catch` block removes what the earlier ones have put there, and the lock goes
  with its owner. So if the steps after it do not fail in turn, every file that is in the
  directory then was there before (`persist_undone`), whatever else is in it.
-/

import QwenTtsBridge.Voice.Published

namespace QwenTtsBridge.Voice.Prepared

open QwenTtsBridge.Lib QwenTtsBridge.Lib.Interrupt QwenTtsBridge.Python QwenTtsBridge.Protocol.Control
open FileNames (key)

/-! ## A publication until it commits -/

section Tasks

variable [FileNames] (platform : Platform) (manifest : CppString) (context : PreparedContext) (extracted : Extracted)
  (generation : CppString)

/-- What is thrown, with what is in place by then. -/
def tracked (progress : Progress) (task : Task Unit) : Prog PreparedError Dir (PreparedError × Progress) Unit :=
  task.mapError (·, progress)

/-- The `try` block up to the rename of the manifest, without its handler. -/
def untilRename (values : List UInt32) (codes : List Int) : Prog PreparedError Dir (PreparedError × Progress) Unit := do
  tracked ⟨false, false, false⟩ (stage platform manifest context extracted generation values codes)
  tracked ⟨true, false, false⟩ do
    hook
    hook
    publishCodes context generation
  tracked ⟨true, !context.xVectorOnly, false⟩ do
    hook
    hook
    rename (manifestTemp manifest generation) manifest

def untilCommit : Task Unit := do
  .ofExcept (validateContext context)
  hook
  let (values, codes) ← .ofExcept (checkExtracted context extracted)
  hook
  acquireLock 3
  admitPublication platform manifest
  (untilRename platform manifest context extracted generation values codes).mapError Prod.fst

/-- The rest of the `try` block. -/
def afterRename : Task Unit :=
  guarded manifest generation ⟨true, !context.xVectorOnly, true⟩ do
    hook
    hook
    removeIfExists markerName

/-- The rest of a publication. -/
def afterCommit : Task PreparedData :=
  Prog.ensure (do
    afterRename manifest context generation
    loadHere platform manifest context) (removeIfExists lockName)

theorem rescue_tracked (progress : Progress) (task : Task Unit) :
    (tracked progress task).rescue (fun thrown => cleanUp manifest generation thrown.2) Prod.fst =
      guarded manifest generation progress task := by
  unfold tracked
  rw [Prog.mapError_rescue]
  rfl

theorem publish_eq (values : List UInt32) (codes : List Int) :
    publish platform manifest context extracted generation values codes =
      (untilRename platform manifest context extracted generation values codes).rescue
        (fun thrown => cleanUp manifest generation thrown.2) Prod.fst >>= fun _ => afterRename manifest context generation := by
  unfold untilRename
  simp only [Prog.rescue_bind, rescue_tracked, Prog.bind_bind]
  rfl

theorem persist_continues :
    Continues (untilCommit platform manifest context extracted generation)
      (persistPreparedVoiceReference platform manifest context extracted generation)
      (afterCommit platform manifest context generation) := by
  unfold untilCommit persistPreparedVoiceReference
  refine Continues.bind _ fun _ => Continues.bind _ fun _ => Continues.bind _ fun r => ?_
  obtain ⟨values, codes⟩ := r
  refine Continues.bind _ fun _ => Continues.bind _ fun _ => Continues.ensure (Continues.bind _ fun _ => ?_) _
  rw [publish_eq, Prog.bind_bind]
  exact Continues.rescue _ _ _ _ _

end Tasks

/-! ## Steps, undisturbed -/

section Calm

variable {α : Type} {d : Dir} {E : PreparedError → Dir → Prop}

theorem calm_look {Q : α → Dir → Prop} {f : Dir → Outcome α} (hdone : ∀ a, f d = .ok a → Q a d)
    (herror : ∀ e, f d = .error e → E e d) : Calm Q E (look f) d := by
  refine calm_act (fun a d' heq => ?_) fun e heq => ?_
  · cases hf : f d with
    | error e =>
      rw [hf] at heq
      cases heq
    | ok b =>
      rw [hf] at heq
      cases heq
      exact hdone a hf
  · cases hf : f d with
    | error e' =>
      rw [hf] at heq
      cases heq
      exact herror e hf
    | ok b =>
      rw [hf] at heq
      cases heq

theorem calm_change {Q : Unit → Dir → Prop} {f : Dir → Outcome Dir} (hdone : ∀ d', f d = .ok d' → Q () d')
    (herror : ∀ e, f d = .error e → E e d) : Calm Q E (change f) d := by
  refine calm_act (fun a d' heq => ?_) fun e heq => ?_
  · cases hf : f d with
    | error e =>
      rw [hf] at heq
      cases heq
    | ok b =>
      rw [hf] at heq
      cases heq
      exact hdone d' hf
  · cases hf : f d with
    | error e' =>
      rw [hf] at heq
      cases heq
      exact herror e hf
    | ok b =>
      rw [hf] at heq
      cases heq

end Calm

/-! ## What the `catch` block removes -/

section Cleaned

variable (manifest generation : CppString)

def temps : List CppString := [speakerTemp generation, rvqTemp generation, manifestTemp manifest generation]

/-- What the `catch` block removes before the commit. -/
def cleaned (speakerPublished rvqPublished : Bool) : List CppString :=
  temps manifest generation ++ ((if speakerPublished then [speakerName generation] else []) ++
    ((if rvqPublished then [rvqName generation] else []) ++ [markerName, markerTemp generation]))

variable {manifest generation} in
theorem cleaned_subset {speakerPublished rvqPublished speakerPublished' rvqPublished' : Bool}
    (hspeaker : speakerPublished = true → speakerPublished' = true) (hrvq : rvqPublished = true → rvqPublished' = true) :
    ∀ name ∈ cleaned manifest generation speakerPublished rvqPublished,
      name ∈ cleaned manifest generation speakerPublished' rvqPublished' := by
  intro name hmem
  unfold cleaned at *
  rcases List.mem_append.mp hmem with htemps | hrest
  · exact List.mem_append_left _ htemps
  · refine List.mem_append_right _ ?_
    rcases List.mem_append.mp hrest with hspk | hrest
    · cases speakerPublished with
      | false => cases hspk
      | true =>
        rw [hspeaker rfl]
        exact List.mem_append_left _ hspk
    · refine List.mem_append_right _ ?_
      rcases List.mem_append.mp hrest with hcodes | hmarkers
      · cases rvqPublished with
        | false => cases hcodes
        | true =>
          rw [hrvq rfl]
          exact List.mem_append_left _ hcodes
      · exact List.mem_append_right _ hmarkers

theorem mem_cleaned : speakerTemp generation ∈ cleaned manifest generation false false ∧
    rvqTemp generation ∈ cleaned manifest generation false false ∧
    manifestTemp manifest generation ∈ cleaned manifest generation false false ∧
    markerName ∈ cleaned manifest generation false false ∧ markerTemp generation ∈ cleaned manifest generation false false := by
  simp only [cleaned, temps, List.mem_append, List.mem_cons, true_or, or_true, and_self]

end Cleaned

/-! ## New files -/

variable [FileNames]

/-- Every file was there before, or has one of these names. -/
def NewOnly (names : List CppString) (d d' : Dir) : Prop :=
  ∀ name bytes, d'.file name = some bytes → key name ∈ names.map key ∨ d.file name = some bytes

section NewOnly

variable {names : List CppString} {d d' d'' : Dir}

theorem NewOnly.refl (names : List CppString) (d : Dir) : NewOnly names d d := fun _ _ h => .inr h

theorem NewOnly.trans (h : NewOnly names d d') (h' : NewOnly names d' d'') : NewOnly names d d'' := by
  intro name bytes hfile
  rcases h' name bytes hfile with hname | hbefore
  · exact .inl hname
  · exact h name bytes hbefore

theorem NewOnly.mono {names' : List CppString} (h : NewOnly names d d') (hnames : ∀ name ∈ names, name ∈ names') :
    NewOnly names' d d' :=
  fun name bytes hfile => (h name bytes hfile).imp_left fun hmem => List.map_subset key hnames hmem

theorem file_of_key {name other : CppString} (h : key other = key name) : d.file other = d.file name := by
  unfold Dir.file Dir.entry
  rw [h]

theorem file_set_self (d : Dir) (name : CppString) (entry : Option Entry) :
    (d.set name entry).file name = match entry with
      | some (.file bytes) => some bytes
      | _ => none := by
  exact congrArg (fun e : Option Entry => match e with
    | some (.file bytes) => some bytes
    | _ => none) (Dir.entry_set_self d name entry)

theorem file_set_ne {name other : CppString} (h : key other ≠ key name) (entry : Option Entry) :
    (d.set name entry).file other = d.file other := by
  unfold Dir.file
  rw [Dir.entry_set_ne _ h]

theorem newOnly_set_file {name : CppString} (h : name ∈ names) (entry : Option Entry) :
    NewOnly names d (d.set name entry) := by
  intro other bytes hfile
  by_cases hother : key other = key name
  · exact .inl (hother ▸ List.mem_map_of_mem h)
  · rw [file_set_ne hother] at hfile
    exact .inr hfile

theorem newOnly_set {entry : Option Entry} (name : CppString) (h : ∀ bytes, entry ≠ some (.file bytes)) :
    NewOnly names d (d.set name entry) := by
  intro other bytes hfile
  by_cases hother : key other = key name
  · rw [file_of_key hother, file_set_self] at hfile
    split at hfile
    · exact absurd rfl (h _)
    · cases hfile
  · rw [file_set_ne hother] at hfile
    exact .inr hfile

theorem newOnly_remove (name : CppString) : NewOnly names d (d.set name none) := newOnly_set name fun _ h => by cases h

end NewOnly

/-! ## Tasks and their files -/

/-- However the task ends, it has put no other files there. -/
def AddsOnly {α : Type} (names : List CppString) (task : Task α) : Prop :=
  ∀ d, Safe (fun _ => True) (fun _ => NewOnly names d) (fun _ => NewOnly names d) task d

section AddsOnly

variable {α β : Type} {names : List CppString}

theorem addsOnly_pure (a : α) : AddsOnly names (pure a : Task α) := fun d => safe_pure (.refl names d)

theorem addsOnly_ofExcept (r : Outcome α) : AddsOnly names (.ofExcept r) :=
  fun d => safe_ofExcept (fun _ _ => .refl names d) fun _ _ => .refl names d

theorem addsOnly_look (f : Dir → Outcome α) : AddsOnly names (look f) :=
  fun d => safe_look trivial (fun _ => .refl names d) fun _ _ => .refl names d

theorem addsOnly_change {f : Dir → Outcome Dir} (h : ∀ d d', f d = .ok d' → NewOnly names d d') :
    AddsOnly names (change f) :=
  fun d => safe_change trivial (fun _ => .refl names d) fun d' => h d d'

theorem AddsOnly.bind {task : Task α} {k : α → Task β} (h : AddsOnly names task) (hk : ∀ a, AddsOnly names (k a)) :
    AddsOnly names (task >>= k) :=
  fun d => (h d).bind fun a d' hd' => (hk a d').mono (fun _ h => h) (fun _ _ h => hd'.trans h) fun _ _ h => hd'.trans h

theorem AddsOnly.ite {condition : Prop} [Decidable condition] {p q : Task α} (hp : AddsOnly names p) (hq : AddsOnly names q) :
    AddsOnly names (if condition then p else q) := by
  split
  · exact hp
  · exact hq

theorem addsOnly_exists (name : CppString) : AddsOnly names (exists_ name) := addsOnly_look _

theorem addsOnly_hook : AddsOnly names hook := addsOnly_look _

theorem addsOnly_writeBytes {name : CppString} (h : name ∈ names) (bytes : Bytes) : AddsOnly names (writeBytes name bytes) := by
  unfold writeBytes
  refine (addsOnly_change fun d d' hd' => ?_).bind fun _ => addsOnly_change fun d _ hd' => ?_
  · split at hd'
    · cases hd'
    · cases hd'
      exact newOnly_set_file h _
  · cases hd'
    exact newOnly_set_file h _

theorem newOnly_rename {source target : CppString} {d d' : Dir} {bytes : Bytes} (h : target ∈ names)
    (hd' : d' = (d.set source none).set target (some (.file bytes))) : NewOnly names d d' := by
  subst hd'
  exact (newOnly_remove source).trans (newOnly_set_file h _)

theorem safe_rename {source target : CppString} {d : Dir} (h : target ∈ names) :
    Safe (fun _ => True) (fun _ => NewOnly names d) (fun _ d' => d' = d) (rename source target) d := by
  refine safe_change trivial (fun _ => rfl) fun d' hd' => ?_
  split at hd'
  · split at hd'
    · cases hd'
    · cases hd'
      exact newOnly_rename h rfl
  · cases hd'

theorem addsOnly_rename {source target : CppString} (h : target ∈ names) : AddsOnly names (rename source target) :=
  fun d => (safe_rename h).mono (fun _ h => h) (fun _ _ h => h) fun _ _ hd' => hd' ▸ .refl names d

theorem addsOnly_renameInto (source directory : CppString) (what : String) :
    AddsOnly names (renameInto source directory what) := by
  refine addsOnly_change fun d d' hd' => ?_
  split at hd'
  · cases hd'
    exact (newOnly_remove source).trans (newOnly_set directory fun _ h => by cases h)
  · cases hd'

/-! What is moved into a quarantine is not among the files any more. -/

theorem addsOnly_makeQuarantine (quarantine : CppString) : AddsOnly names (makeQuarantine quarantine) := by
  unfold makeQuarantine
  refine (addsOnly_exists _).bind fun present => AddsOnly.ite (addsOnly_look _) (addsOnly_change fun d d' hd' => ?_)
  cases hd'
  exact newOnly_set quarantine fun _ h => by cases h

theorem addsOnly_moveOwned (quarantine name : CppString) : AddsOnly names (moveOwned quarantine name) := by
  unfold moveOwned
  refine AddsOnly.ite (addsOnly_pure ()) ((addsOnly_exists _).bind fun present => AddsOnly.ite (addsOnly_pure ()) ?_)
  exact (addsOnly_look _).bind fun taken => AddsOnly.ite (addsOnly_ofExcept _) (addsOnly_renameInto _ _ _)

theorem addsOnly_moveMarker (quarantine : CppString) : AddsOnly names (moveMarker quarantine) := by
  unfold moveMarker
  exact (addsOnly_look _).bind fun taken => AddsOnly.ite (addsOnly_ofExcept _) (addsOnly_renameInto _ _ _)

theorem addsOnly_quarantineGeneration (manifest generation speaker rvq : CppString) :
    AddsOnly names (quarantineGeneration manifest generation speaker rvq) := by
  unfold quarantineGeneration
  refine (addsOnly_makeQuarantine _).bind fun _ => (addsOnly_moveOwned _ _).bind fun _ => addsOnly_hook.bind fun _ => ?_
  refine (addsOnly_moveOwned _ _).bind fun _ => (addsOnly_moveOwned _ _).bind fun _ => (addsOnly_moveOwned _ _).bind fun _ => ?_
  exact (addsOnly_moveOwned _ _).bind fun _ => addsOnly_moveMarker _

theorem addsOnly_admitPublication (platform : Platform) (manifest : CppString) :
    AddsOnly names (admitPublication platform manifest) := by
  have hrecover : AddsOnly names (recoverIncompletePublication platform manifest) := by
    unfold recoverIncompletePublication
    refine (addsOnly_exists _).bind fun present => AddsOnly.ite (addsOnly_pure ()) ((addsOnly_look _).bind fun r => ?_)
    obtain ⟨generation, speaker, rvq⟩ := r
    exact (addsOnly_exists _).bind fun committed =>
      AddsOnly.ite (addsOnly_pure ()) (addsOnly_quarantineGeneration manifest generation speaker rvq)
  have hrefuse : AddsOnly names (refuseOverwrite manifest) := by
    unfold refuseOverwrite
    exact (addsOnly_exists _).bind fun _ => (addsOnly_exists _).bind fun _ => (addsOnly_exists _).bind fun _ =>
      addsOnly_ofExcept _
  unfold admitPublication
  exact hrecover.bind fun _ => hrefuse

end AddsOnly

/-! ## The lock -/

section Lock

variable {d : Dir}

theorem safe_createLock : Safe (fun _ => True) (fun taken d' => if taken then NewOnly [lockName] d d' else d' = d)
    (fun _ d' => d' = d) createLock d := by
  refine safe_act trivial (fun _ => rfl) fun taken d' hd' => ?_
  split at hd'
  · cases hd'
    rfl
  · cases hd'
    exact newOnly_set_file (List.mem_singleton_self _) _

theorem addsOnly_deleteLock : AddsOnly [] deleteLock := by
  refine addsOnly_change fun d d' hd' => ?_
  split at hd'
  · cases hd'
  · cases hd'
    exact newOnly_remove lockName

/-- The lock is there when it is held, and else no file is new. -/
theorem safe_acquireLock (attempts : Nat) :
    Safe (fun _ => True) (fun _ => NewOnly [lockName] d) (fun _ => NewOnly [] d) (acquireLock attempts) d := by
  induction attempts generalizing d with
  | zero => exact safe_throw (.refl [] d)
  | succ attempts ih =>
    unfold acquireLock
    refine (safe_createLock.mono (fun _ h => h) (fun _ _ h => h) fun _ d' hd' => hd' ▸ .refl [] d).bind
      fun taken d' htaken => ?_
    cases taken with
    | true => exact safe_pure htaken
    | false =>
      cases (show d' = d from htaken)
      refine ((addsOnly_hook : AddsOnly [] hook) d).bind fun _ d₁ h₁ => ?_
      refine ((addsOnly_deleteLock d₁).mono (fun _ h => h) (fun _ _ h => h₁.trans h) fun _ _ h => h₁.trans h).bind
        fun _ d₂ h₂ => ?_
      refine ih.mono (fun _ h => h) (fun _ _ h => ?_) fun _ _ h => h₂.trans h
      exact (h₂.mono nofun).trans h

end Lock

/-! ## The `catch` block -/

section CleanUp

variable {names : List CppString} {d₀ d : Dir}

/-- A name that is removed is not new any more. -/
theorem calm_removeIfExists {name : CppString} (h : NewOnly (name :: names) d₀ d) :
    Calm (fun _ => NewOnly names d₀) (fun _ _ => False) (removeIfExists name) d := by
  unfold removeIfExists
  refine Calm.attempt (E := fun _ d' => d' = d ∧ d.isDirectory name = true) ?_ fun e d' hd' => ?_
  · refine calm_change (fun d' hd' => ?_) fun e he => ⟨rfl, ?_⟩
    · split at hd'
      · cases hd'
      · cases hd'
        intro other bytes hfile
        by_cases hother : key other = key name
        · rw [file_of_key hother, file_set_self] at hfile
          cases hfile
        · rw [file_set_ne hother] at hfile
          exact (h other bytes hfile).imp_left fun hmem => (List.mem_cons.mp hmem).resolve_left hother
    · split at he
      · assumption
      · cases he
  · obtain ⟨rfl, hdirectory⟩ := hd'
    refine calm_pure fun other bytes hfile => ?_
    have hother : key other ≠ key name := by
      intro heq
      rw [file_of_key heq] at hfile
      unfold Dir.isDirectory at hdirectory
      unfold Dir.file at hfile
      split at hdirectory
      · rename_i hentry
        rw [hentry] at hfile
        cases hfile
      · cases hdirectory
    exact (h other bytes hfile).imp_left fun hmem => (List.mem_cons.mp hmem).resolve_left hother

variable {manifest generation : CppString}

theorem calm_removeWhen {condition : Bool} {name : CppString}
    (h : NewOnly ((if condition then [name] else []) ++ names) d₀ d) :
    Calm (fun _ => NewOnly names d₀) (fun _ _ => False) (removeWhen condition name) d := by
  cases condition with
  | true => exact calm_removeIfExists h
  | false => exact calm_pure h

theorem calm_cleanUp {speakerPublished rvqPublished : Bool}
    (h : NewOnly (cleaned manifest generation speakerPublished rvqPublished) d₀ d) :
    Calm (fun _ => NewOnly [] d₀) (fun _ _ => False) (cleanUp manifest generation ⟨speakerPublished, rvqPublished, false⟩) d := by
  simp only [cleaned, temps, List.cons_append, List.nil_append] at h
  unfold cleanUp
  refine (calm_removeIfExists h).bind fun _ d h => (calm_removeIfExists h).bind fun _ d h =>
    (calm_removeIfExists h).bind fun _ d h => ?_
  rw [if_neg Bool.false_ne_true]
  refine (calm_removeWhen h).bind fun _ d h => (calm_removeWhen h).bind fun _ d h => ?_
  exact (calm_removeIfExists h).bind fun _ d h => calm_removeIfExists h

end CleanUp

/-! ## The `try` block -/

section Try

variable {platform : Platform} {manifest : CppString} {context : PreparedContext} {extracted : Extracted}
  {generation : CppString} {d : Dir}

/-- The `try` block without the renames puts nothing in place. -/
theorem addsOnly_staging (platform : Platform) (manifest : CppString) (context : PreparedContext) (extracted : Extracted)
    (generation : CppString) (values : List UInt32) (codes : List Int) :
    AddsOnly (cleaned manifest generation false false) (placeMarker platform manifest context generation) ∧
    AddsOnly (cleaned manifest generation false false) (writeBytes (speakerTemp generation) (speakerBytes values)) ∧
    AddsOnly (cleaned manifest generation false false) (writeCodes context generation codes) ∧
    AddsOnly (cleaned manifest generation false false) (hashTemps context generation) ∧
    (∀ speaker packed, AddsOnly (cleaned manifest generation false false)
      (writeManifest platform manifest context extracted generation speaker packed)) ∧
    ∀ size packed root, AddsOnly (cleaned manifest generation false false)
      (checkTemps platform manifest context generation codes size packed root) := by
  obtain ⟨hspeaker, hrvq, hmanifest, hmarker, hmarkerTemp⟩ := mem_cleaned manifest generation
  refine ⟨?_, addsOnly_writeBytes hspeaker _, ?_, ?_, fun speaker packed => ?_, fun size packed root => ?_⟩
  · unfold placeMarker
    exact (addsOnly_ofExcept _).bind fun _ => (addsOnly_writeBytes hmarkerTemp _).bind fun _ =>
      (addsOnly_rename hmarker).bind fun _ => addsOnly_hook.bind fun _ => addsOnly_hook.bind fun _ => addsOnly_hook
  · unfold writeCodes
    exact AddsOnly.ite (addsOnly_pure _) ((addsOnly_ofExcept _).bind fun _ => (addsOnly_writeBytes hrvq _).bind fun _ =>
      addsOnly_hook.bind fun _ => addsOnly_pure _)
  · unfold hashTemps
    exact (addsOnly_look _).bind fun _ => AddsOnly.ite (addsOnly_pure _) ((addsOnly_look _).bind fun _ => addsOnly_pure _)
  · unfold writeManifest
    exact (addsOnly_ofExcept _).bind fun _ => (addsOnly_writeBytes hmanifest _).bind fun _ => addsOnly_pure _
  · unfold checkTemps checkPacked
    exact (addsOnly_look _).bind fun _ => (AddsOnly.ite (addsOnly_pure _) (addsOnly_look _)).bind fun _ => addsOnly_look _

/-- A task that has put no artifact in place, and the rest. -/
theorem safe_staging {α β : Type} {names : List CppString} {task : Task α} {k : α → Task β} {Q : β → Dir → Prop} {d' : Dir}
    (h : AddsOnly names task) (hd' : NewOnly names d d')
    (hk : ∀ a d'', NewOnly names d d'' → Safe (fun _ => True) Q (fun _ => NewOnly names d) (k a) d'') :
    Safe (fun _ => True) Q (fun _ => NewOnly names d) (task >>= k) d' :=
  ((h d').mono (fun _ h => h) (fun _ _ h => hd'.trans h) fun _ _ h => hd'.trans h).bind hk

/-- Only its last step puts an artifact in place. -/
theorem safe_stage (values : List UInt32) (codes : List Int) :
    Safe (fun _ => True) (fun _ => NewOnly (cleaned manifest generation true false) d)
      (fun _ => NewOnly (cleaned manifest generation false false) d)
      (stage platform manifest context extracted generation values codes) d := by
  obtain ⟨hplace, hspeaker, hcodes, hhash, hwrite, hcheck⟩ :=
    addsOnly_staging platform manifest context extracted generation values codes
  unfold stage
  refine safe_staging hplace (.refl _ d) fun _ d₁ h₁ => safe_staging hspeaker h₁ fun _ d₂ h₂ => ?_
  refine safe_staging addsOnly_hook h₂ fun _ d₃ h₃ => safe_staging hcodes h₃ fun packed d₄ h₄ => ?_
  refine safe_staging hhash h₄ fun r d₅ h₅ => ?_
  obtain ⟨speaker, rvq⟩ := r
  refine safe_staging (hwrite speaker rvq) h₅ fun root d₆ h₆ => safe_staging (hcheck _ _ _) h₆ fun _ d₇ h₇ => ?_
  have hname : speakerName generation ∈ cleaned manifest generation true false := by
    simp only [cleaned, if_true, List.mem_append, List.mem_cons, true_or, or_true]
  have hgrown : NewOnly (cleaned manifest generation true false) d d₇ := h₇.mono (cleaned_subset nofun nofun)
  exact (safe_rename hname).mono (fun _ h => h) (fun _ _ h => hgrown.trans h) fun _ d' hd' => hd' ▸ h₇

/-- The hooks before a rename, and the rename. -/
theorem safe_hooked {names : List CppString} {task : Task Unit} {d' : Dir} (h : NewOnly names d d') {Q : Dir → Prop}
    (htask : ∀ d'', NewOnly names d d'' → Safe (fun _ => True) (fun _ => Q) (fun _ => NewOnly names d) task d'') :
    Safe (fun _ => True) (fun _ => Q) (fun _ => NewOnly names d) (do hook; hook; task) d' :=
  safe_staging addsOnly_hook h fun _ _ h₁ => safe_staging addsOnly_hook h₁ fun _ d' h₂ => htask d' h₂

/-- What is in place when a step fails, the `catch` block removes. -/
theorem safe_untilRename (values : List UInt32) (codes : List Int) :
    Safe (fun _ => True) (fun _ _ => True) (fun thrown d' => ∃ speakerPublished rvqPublished,
        thrown.2 = ⟨speakerPublished, rvqPublished, false⟩ ∧ NewOnly (cleaned manifest generation speakerPublished rvqPublished) d d')
      (untilRename platform manifest context extracted generation values codes) d := by
  unfold untilRename tracked
  refine Safe.bind ((safe_stage values codes).mapError fun e d' h => ⟨false, false, rfl, h⟩) fun _ _ h₁ => ?_
  refine Safe.bind (Q := fun _ => NewOnly (cleaned manifest generation true (!context.xVectorOnly)) d)
    (Safe.mapError (E := fun _ => NewOnly (cleaned manifest generation true false) d) (safe_hooked h₁ fun d₂ h₂ => ?_)
      fun e d' h => ⟨true, false, rfl, h⟩) fun _ d₃ h₃ => ?_
  · unfold publishCodes
    cases context.xVectorOnly with
    | true => exact safe_pure h₂
    | false =>
      have hname : rvqName generation ∈ cleaned manifest generation true true := by
        simp only [cleaned, if_true, List.mem_append, List.mem_cons, true_or, or_true]
      have hgrown : NewOnly (cleaned manifest generation true true) d d₂ := h₂.mono (cleaned_subset (fun h => h) nofun)
      exact (safe_rename hname).mono (fun _ h => h) (fun _ _ h => hgrown.trans h) fun _ d' hd' => hd' ▸ h₂
  · refine Safe.mapError (E := fun _ => NewOnly (cleaned manifest generation true (!context.xVectorOnly)) d)
      (safe_hooked (Q := fun _ => True) h₃ fun d₄ h₄ => ?_) fun e d' h => ⟨true, !context.xVectorOnly, rfl, h⟩
    exact (safe_rename (List.mem_singleton_self manifest)).mono (fun _ h => h) (fun _ _ _ => trivial) fun _ d' hd' => hd' ▸ h₄

end Try

/-! ## The publication -/

theorem persist_undone (platform : Platform) (manifest : CppString) (context : PreparedContext) (extracted : Extracted)
    (generation : CppString) (d : Dir) :
    Undone (NewOnly [] d) (untilCommit platform manifest context extracted generation)
      (persistPreparedVoiceReference platform manifest context extracted generation) d := by
  have hsame {α : Type} (r : Outcome α) (d' : Dir) (h : d' = d) :
      Safe (fun _ => True) (fun _ d'' => d'' = d) (fun _ => NewOnly [] d) (.ofExcept r : Task α) d' :=
    safe_ofExcept (fun _ _ => h) fun _ _ => h ▸ .refl [] d'
  have hhook (d' : Dir) (h : d' = d) : Safe (fun _ => True) (fun _ d'' => d'' = d) (fun _ => NewOnly [] d) hook d' :=
    safe_look trivial (fun _ => h ▸ .refl [] d') fun _ _ => h
  unfold untilCommit persistPreparedVoiceReference
  refine Undone.bind (hsame _ d rfl) fun _ d' h => Undone.bind (hhook d' h) fun _ d' h => ?_
  refine Undone.bind (hsame _ d' h) fun r d' h => ?_
  obtain ⟨values, codes⟩ := r
  refine Undone.bind (hhook d' h) fun _ d' h => ?_
  rw [h]
  refine Undone.bind (safe_acquireLock 3) fun _ d₁ hlock => ?_
  -- the lock is the only new file, and goes in the end
  refine Undone.ensure (?_ : Undone (NewOnly [lockName] d) _ _ d₁) fun d' h => (calm_removeIfExists h).mono (fun _ _ h => h) nofun
  refine Undone.bind (Q := fun _ => NewOnly [lockName] d)
    ((addsOnly_admitPublication platform manifest d₁).mono (fun _ h => h) (fun _ _ h => hlock.trans h) fun _ _ h => hlock.trans h)
    fun _ d₂ h₂ => ?_
  rw [publish_eq, Prog.bind_bind]
  refine Undone.rescue (safe_untilRename values codes) fun thrown d' hthrown => ?_
  obtain ⟨speakerPublished, rvqPublished, hprogress, hnew⟩ := hthrown
  rw [hprogress]
  refine (calm_cleanUp hnew).mono (fun _ d' h => ?_) nofun
  exact h₂.trans (h.mono nofun)

end QwenTtsBridge.Voice.Prepared
