/-
  QwenTtsBridge.Voice.Twin — one prepared voice in front of its two validators.

  The two read one manifest, which their JSON libraries take alike (`Twin`). A field that the
  static check takes, the reader takes, too. What they make of the artifacts differs in three
  places: the paths of the two artifacts, where `pathlib` is more lenient about the spelling,
  and `bits_per_code`, where Python takes any number that equals 11.

  - `loadSpeaker_iff`, `loadCodes_iff`: what the static check has seen loads exactly when it is
    spelled as the reader wants it.
-/

import QwenTtsBridge.Voice.VerifyVoice
import QwenTtsBridge.Voice.CodePacking
import QwenTtsBridge.Interop.Denotes
import QwenTtsBridge.Lib.Outcome

namespace QwenTtsBridge.Voice.Loadable

open QwenTtsBridge.Lib QwenTtsBridge.Lib.WindowsPath QwenTtsBridge.Python QwenTtsBridge.Protocol.Control
open QwenTtsBridge.Interop QwenTtsBridge.Voice.Prepared QwenTtsBridge.Voice.Library

/-! ## One object in both libraries -/

/-- A JSON object as each library keeps it. -/
structure Twin (fields : List (CppString × Json)) (d : Dict) : Prop where
  denotes : Denotes (.object fields) (.dict d)
  canonical : Json.Canonical (.object fields)

namespace Twin

variable {fields : List (CppString × Json)} {d : Dict} (h : Twin fields d) {name : String}
  (hname : isPlain name = true)

include h hname

theorem field {w : Value} (hget : Dict.get? d (PyStr.lit name) = some w) :
    ∃ v, (Json.object fields).field name = some v ∧ Denotes v w ∧ Json.Canonical v := by
  cases hfield : (Json.object fields).field name with
  | none =>
    rw [h.denotes.get?_none hname hfield] at hget
    cases hget
  | some v =>
    obtain ⟨w', hw', hv⟩ := h.denotes.get?_some hname hfield
    rw [hw'] at hget
    cases hget
    refine ⟨v, rfl, hv, ?_⟩
    cases h.canonical with
    | object _ hfields => exact hfields _ (SortedMap.mem_of_find hfield)

theorem string {t : PyStr} (hstr : str? d name = some t) :
    ∃ s, (Json.object fields).field name = some (.string s) ∧ Utf8.decode s = some t := by
  unfold str? at hstr
  split at hstr
  · rename_i s hget
    cases hstr
    obtain ⟨v, hv, hdenotes, -⟩ := h.field hname hget
    cases v with
    | string s => exact ⟨s, hv, hdenotes⟩
    | _ => exact hdenotes.elim
  · cases hstr

theorem unsigned {n : Int} (hint : int? d name = some n) (hlow : 0 ≤ n) (hhigh : n < 2 ^ 64) :
    ∃ m, (Json.object fields).field name = some (.numberUnsigned m) ∧ (m.toNat : Int) = n := by
  unfold int? at hint
  split at hint
  · rename_i k hget
    cases hint
    obtain ⟨v, hv, hdenotes, hcanonical⟩ := h.field hname hget
    cases v with
    | numberUnsigned m => exact ⟨m, hv, hdenotes⟩
    | numberInteger m =>
      -- the parser keeps only negative numbers so
      cases hcanonical with
      | numberInteger hneg =>
        have hlt : m.toInt < 0 := Int64.lt_iff_toInt_lt.mp hneg
        have heq : m.toInt = n := hdenotes
        omega
    | numberFloat x =>
      have hout : n < -(2 ^ 63) ∨ 2 ^ 64 ≤ n := hdenotes.1
      omega
    | _ => exact hdenotes.elim
  · cases hint

theorem object {e : Dict} (hdict : dict? d name = some e) :
    ∃ inner, (Json.object fields).field name = some (.object inner) ∧ Twin inner e := by
  unfold dict? at hdict
  split at hdict
  · rename_i e' hget
    cases hdict
    obtain ⟨v, hv, hdenotes, hcanonical⟩ := h.field hname hget
    cases v with
    | object inner => exact ⟨inner, hv, hdenotes, hcanonical⟩
    | _ => exact hdenotes.elim
  · cases hdict

theorem requiredString {t : PyStr} (hstr : str? d name = some t) (ht : t ≠ []) :
    ∃ s, Prepared.requiredString (.object fields) name = .ok s ∧ Utf8.decode s = some t := by
  obtain ⟨s, hs, hdecode⟩ := h.string hname hstr
  refine ⟨s, ?_, hdecode⟩
  have hne : s ≠ [] := by
    rintro rfl
    cases hdecode
    exact ht rfl
  unfold Prepared.requiredString
  rw [hs]
  dsimp only
  rw [if_neg (by simpa using hne)]

theorem expectString {t : PyStr} {expected : CppString} (hstr : str? d name = some t) (ht : t ≠ [])
    (hexpected : Utf8.decode expected = some t) (what : String) :
    Prepared.expectString (.object fields) name expected what = .ok () := by
  obtain ⟨s, hs, hdecode⟩ := h.requiredString hname hstr ht
  unfold Prepared.expectString
  rw [hs, Utf8.decode_injective hdecode hexpected, ok_bind]
  exact refuseIf_false (by simp) what

/-- A field that has to be a text of the source. -/
theorem expectLit {text : String} (hstr : str? d name = some (PyStr.lit text)) (ht : PyStr.lit text ≠ [])
    (htext : isPlain text = true) (what : String) :
    Prepared.expectString (.object fields) name (CppString.lit text) what = .ok () :=
  h.expectString hname hstr ht (decode_lit htext) what

theorem requiredInteger {n : Int} (hint : int? d name = some n) (hlow : 0 ≤ n) (hhigh : n < 2 ^ 31) :
    Prepared.requiredInteger (.object fields) name = .ok n := by
  obtain ⟨m, hm, rfl⟩ := h.unsigned hname hint hlow (by omega)
  unfold Prepared.requiredInteger
  rw [hm]
  dsimp only
  rw [Int.bmod_eq_of_le (by omega) (by omega)]

theorem expectInteger {n : Int} (hint : int? d name = some n) (hlow : 0 ≤ n) (hhigh : n < 2 ^ 31) (what : String) :
    Prepared.expectInteger (.object fields) name n what = .ok () := by
  unfold Prepared.expectInteger
  rw [h.requiredInteger hname hint hlow hhigh, ok_bind]
  exact refuseIf_false (by simp) what

theorem requiredSize {n : Int} (hint : int? d name = some n) (hlow : 0 ≤ n) (hhigh : n < 2 ^ 64) :
    Prepared.requiredSize (.object fields) name = .ok n.toNat := by
  obtain ⟨m, hm, rfl⟩ := h.unsigned hname hint hlow hhigh
  unfold Prepared.requiredSize
  rw [hm]
  rfl

end Twin

/-! ## Paths -/

theorem lower_letter {a b : Nat} (h : lower [a] = lower [b]) (hb : isSep b = true ∨ isLetter b = true) :
    isSep a = true ∨ isLetter a = true := by
  simp only [lower, List.map_cons, List.map_nil, List.cons.injEq, and_true] at h
  simp only [isSep, isLetter, Bool.or_eq_true, Bool.and_eq_true, beq_iff_eq, decide_eq_true_eq] at hb ⊢
  split_ifs at h <;> omega

/-- A path that names no drive of the machine has no drive that is one. -/
theorem lower_drive_ne {place : Place} {path : PyStr} (hrooted : isRooted path = false) (hdrive : drive path ≠ []) :
    lower (drive path) ≠ lower place.drive := by
  intro heq
  have hplace := place.rooted
  match path with
  | [] => exact hdrive rfl
  | [a] =>
    have ha : isSep a = false := hrooted
    apply hdrive
    simp only [drive, splitroot, ha]
    rfl
  | a :: b :: rest =>
    simp only [isRooted, Bool.or_eq_false_iff] at hrooted
    by_cases hb : (b == 58) = true
    · have hdrive : drive (a :: b :: rest) = [a, b] := by
        simp only [drive, splitroot, hrooted.1, hb]
        cases rest with
        | nil => rfl
        | cons c rest => by_cases hc : isSep c = true <;> simp [hc]
      rw [hdrive] at heq
      have hletter : isLetter a = false := by simpa [hb] using hrooted.2
      have hlength : place.drive.length = 2 := by
        have := congrArg List.length heq
        simpa [lower] using this.symm
      obtain ⟨c, e, hce⟩ := List.length_eq_two.mp hlength
      rw [hce] at heq hplace
      have hhead : lower [a] = lower [c] := by
        simp only [lower, List.map_cons, List.map_nil, List.cons.injEq, and_true] at heq ⊢
        exact heq.1
      simp only [isRooted, Bool.or_eq_true, Bool.and_eq_true] at hplace
      rcases lower_letter hhead (hplace.imp id And.left) with ha | ha
      · rw [hrooted.1] at ha
        cases ha
      · rw [hletter] at ha
        cases ha
    · apply hdrive
      simp only [Bool.not_eq_true] at hb
      simp only [drive, splitroot, hrooted.1, hb]
      rfl

/-- What `pathlib` finds behind a plain path is what `std::filesystem` finds there. -/
theorem resolveBelow_plain {place : Place} {path : PyStr} {notRelative escapes : String} {file : List PyStr}
    (h : resolveBelow place path notRelative escapes = .ok file) (hplain : Plain path) :
    file = elements path ∧ isSafeRelativePath path = true := by
  unfold resolveBelow at h
  split at h
  · cases h
  · rename_i hchecked
    simp only [Bool.or_eq_true, not_or, Bool.not_eq_true] at hchecked
    have hdrive : drive path = [] := by
      by_contra hne
      have hroot : hasRoot path = false := by
        have habsolute := hchecked.1
        unfold isAbsolute at habsolute
        simpa [hne] using habsolute
      rw [hroot] at h
      simp only [Bool.false_eq_true, if_false] at h
      split at h
      · rename_i hcond
        simp only [Bool.or_eq_true, List.isEmpty_iff, beq_iff_eq] at hcond
        rcases hcond with hnil | heq
        · exact hne hnil
        · exact lower_drive_ne hplain.relative hne heq
      · cases h
    have hsplit := splitroot_of_plain_drive hplain.relative hdrive
    have hroot : hasRoot path = false := by
      unfold hasRoot
      rw [hsplit]
      rfl
    rw [hroot, hdrive] at h
    have hfile : tailNames path = file := by simpa using h
    have helements := tailNames_of_plain hplain hdrive
    refine ⟨hfile.symm.trans helements, ?_⟩
    have hup : dotDot ∉ elements path := by
      rw [← helements]
      simpa using hchecked.2
    unfold isSafeRelativePath
    rw [hplain.relative]
    have hparts : ((segments path).all fun part => part != dotDot && part != dot) = true := by
      refine List.all_eq_true.mpr fun part hpart => ?_
      have hdot : part ≠ dot := fun heq => hplain.noDot (heq ▸ hpart)
      have hdotDot : part ≠ dotDot := by
        rintro rfl
        exact hup (List.mem_filter.mpr ⟨hpart, by decide⟩)
      simp [hdot, hdotDot]
    rw [hparts]
    simpa using hplain.ne_nil

/-! ## Artifacts -/

theorem hexDigit_ascii {n : UInt8} (h : n < 16) : Prepared.hexDigit n < 0x80 := by
  have hn : n.toNat < 16 := h
  unfold Prepared.hexDigit
  split
  · show (48 + n).toNat < 0x80
    rw [UInt8.toNat_add, show (48 : UInt8).toNat = 48 from rfl]
    omega
  · show (87 + n).toNat < 0x80
    rw [UInt8.toNat_add, show (87 : UInt8).toNat = 87 from rfl]
    omega

theorem hex_ascii (sha : Sha256) (bytes : Bytes) : ∀ b ∈ sha.hex bytes, b < 0x80 := by
  intro b hb
  obtain ⟨c, -, hc⟩ := List.mem_flatMap.mp hb
  simp only [List.mem_cons, List.not_mem_nil, or_false] at hc
  have hc' := c.toNat_lt
  rcases hc with rfl | rfl
  · apply hexDigit_ascii
    show (c / 16).toNat < 16
    rw [UInt8.toNat_div, show (16 : UInt8).toNat = 16 from rfl]
    omega
  · apply hexDigit_ascii
    show (c % 16).toNat < 16
    rw [UInt8.toNat_mod, show (16 : UInt8).toNat = 16 from rfl]
    omega

theorem decode_hex (sha : Sha256) (bytes : Bytes) : Utf8.decode (sha.hex bytes) = some (hexdigest sha bytes) :=
  Utf8.decode_ascii (hex_ascii sha bytes)

theorem length_hex (sha : Sha256) (bytes : Bytes) : (sha.hex bytes).length = 64 := by
  have hflat : ∀ digest : Bytes, (hexText digest).length = 2 * digest.length := by
    intro digest
    induction digest with
    | nil => rfl
    | cons b digest ih =>
      unfold hexText at ih ⊢
      rw [List.flatMap_cons, List.length_append, ih]
      simp only [List.length_cons, List.length_nil]
      omega
  unfold Sha256.hex
  rw [hflat, sha.length_digest]

theorem hexdigest_ne_nil (sha : Sha256) (bytes : Bytes) : hexdigest sha bytes ≠ [] := by
  intro hnil
  have hlength := congrArg List.length hnil
  rw [hexdigest, List.length_map, length_hex] at hlength
  cases hlength

/-- What the static check has seen of an artifact. -/
structure Seen (sha : Sha256) (place : Place) (path hash : PyStr) (size maximum : Int) (bytes : Bytes) : Prop where
  file : ∃ names, resolveManifestArtifact place path = .ok names ∧ place.tree names = some bytes
  pos : 0 < size
  length : (bytes.length : Int) = size
  bounded : size ≤ maximum
  hash : hexdigest sha bytes = hash

theorem seen_of_verified {sha : Sha256} {place : Place} {path hash : PyStr} {size maximum : Int} {message : String}
    {bytes : Bytes} (h : verifiedArtifact sha place path hash size maximum message = .ok bytes) :
    Seen sha place path hash size maximum bytes := by
  unfold verifiedArtifact at h
  obtain ⟨names, hnames, h⟩ := exists_of_bind h
  obtain ⟨bytes', hread, h⟩ := exists_of_bind h
  obtain ⟨_, hhash, h⟩ := exists_of_bind h
  cases h
  unfold readBoundedArtifact at hread
  split at hread
  · cases hread
  · rename_i hsize
    split at hread
    · cases hread
    · rename_i bytes' htree
      split at hread
      · cases hread
      · rename_i hlength
        cases hread
        exact ⟨⟨names, hnames, htree⟩, by omega, by omega, by omega, by simpa using hhash⟩

section Artifact

variable {fields : List (CppString × Json)} {d : Dict} {sha : Sha256} {place : Place} {path hash : PyStr}
  {size : Int} {maximum : Nat} {bytes : Bytes} {what : String}

theorem readArtifact_of_plain (h : Twin fields d) (hpath : str? d "path" = some path)
    (hhash : str? d "sha256" = some hash) (hseen : Seen sha place path hash size maximum bytes) (hplain : Plain path) :
    ∃ s, readArtifact sha place.tree (.object fields) size.toNat maximum what = .ok (bytes, s) ∧
      Utf8.decode s = some hash := by
  obtain ⟨names, hnames, htree⟩ := hseen.file
  obtain ⟨relative, hrelative, hdecode⟩ := h.requiredString (by decide) hpath hplain.ne_nil
  obtain ⟨hfile, hsafe⟩ := resolveBelow_plain hnames hplain
  have hne : hash ≠ [] := hseen.hash ▸ hexdigest_ne_nil sha bytes
  obtain ⟨expected, hexpected, hexpectedText⟩ := h.requiredString (by decide) hhash hne
  have hartifact : artifactPath relative = .ok path := by
    unfold artifactPath
    rw [hdecode]
    exact if_pos hsafe
  have hread : readBoundedFile place.tree path size.toNat maximum = .ok bytes := by
    have hlength := hseen.length
    have hpos := hseen.pos
    have hbounded := hseen.bounded
    unfold readBoundedFile Tree.file
    rw [hplain.noEnd, ← hfile]
    simp only [Bool.false_eq_true, if_false, htree]
    rw [if_neg (by omega)]
  have hequal : sha.hex bytes = expected :=
    Utf8.decode_injective (decode_hex sha bytes) (hexpectedText.trans (congrArg some hseen.hash.symm))
  refine ⟨expected, ?_, hexpectedText⟩
  unfold readArtifact
  rw [hrelative, ok_bind, hartifact, ok_bind, hread, ok_bind, hexpected, ok_bind,
    refuseIf_false (by simp [hequal]), ok_bind]

theorem plain_of_readArtifact (h : Twin fields d) (hpath : str? d "path" = some path) {tree : Tree} {size : Nat}
    {r : Bytes × CppString} (hread : readArtifact sha tree (.object fields) size maximum what = .ok r) : Plain path := by
  unfold readArtifact at hread
  obtain ⟨relative, hrelative, hread⟩ := exists_of_bind hread
  obtain ⟨path', hartifact, hread⟩ := exists_of_bind hread
  obtain ⟨bytes, hbytes, -⟩ := exists_of_bind hread
  obtain ⟨s, hs, hdecode⟩ := h.string (by decide) hpath
  have heq : relative = s := by
    unfold Prepared.requiredString at hrelative
    rw [hs] at hrelative
    dsimp only at hrelative
    split at hrelative
    · cases hrelative
    · cases hrelative
      rfl
  subst heq
  unfold artifactPath at hartifact
  rw [hdecode] at hartifact
  dsimp only at hartifact
  split at hartifact
  · rename_i hsafe
    cases hartifact
    unfold isSafeRelativePath at hsafe
    simp only [Bool.and_eq_true, Bool.not_eq_true', List.isEmpty_eq_false_iff] at hsafe
    obtain ⟨⟨hne, hrelative⟩, hparts⟩ := hsafe
    refine ⟨hne, hrelative, fun hdot => ?_, ?_⟩
    · have := List.all_eq_true.mp hparts _ hdot
      simp at this
    · unfold readBoundedFile Tree.file at hbytes
      by_contra hend
      rw [Bool.not_eq_false] at hend
      rw [hend] at hbytes
      cases hbytes
  · cases hartifact

end Artifact

/-! ## Speaker and codes -/

theorem isfinite_eq (bits : Nat) : isfinite bits = (!isNan bits && !isInf bits) := by
  unfold isfinite isNan isInf
  generalize bits / 2 ^ 23 % 256 = exponent
  generalize bits % 2 ^ 23 = fraction
  by_cases h : exponent = 255
  · by_cases hfraction : fraction = 0 <;> simp [h, hfraction]
  · have hexponent : (exponent == 255) = false := by simpa using h
    simp [bne, hexponent]

section Parts

variable {fields : List (CppString × Json)} {d : Dict} {sha : Sha256} {place : Place} {path : PyStr}

theorem sha256?_some {name : String} {hash : PyStr} (h : sha256? d name = some hash) :
    str? d name = some hash ∧ isSha256 hash = true := by
  unfold sha256? at h
  rw [Option.filter_eq_some_iff] at h
  exact h

/-- The speaker embedding loads exactly when its path is plain. -/
theorem loadSpeaker_iff (h : Twin fields d) (hpath : str? d "path" = some path)
    (hverified : verifySpeaker sha place d = .ok ()) :
    (∃ r, loadSpeaker sha place.tree (.object fields) = .ok r) ↔ Plain path := by
  unfold verifySpeaker at hverified
  split at hverified
  · rename_i dimension size hdimension hsize
    obtain ⟨_, hbounds, hverified⟩ := exists_of_bind hverified
    obtain ⟨_, hscalar, hverified⟩ := exists_of_bind hverified
    simp only [require_ok, Bool.and_eq_true, decide_eq_true_eq, beq_iff_eq] at hbounds hscalar
    obtain ⟨⟨⟨hpos, hmax⟩, hfour⟩, hbytesMax⟩ := hbounds
    split at hverified
    · cases hverified
    · rename_i hash hhash
      rw [hpath] at hverified
      dsimp only at hverified
      obtain ⟨bytes, hartifact, hfinite⟩ := exists_of_bind hverified
      have hseen := seen_of_verified hartifact
      simp only [require_ok] at hfinite
      have hmax' : dimension ≤ 2 ^ 20 := hmax
      have hbytesMax' : size ≤ 2 ^ 24 := hbytesMax
      unfold loadSpeaker
      rw [h.requiredInteger (by decide) hdimension (by omega) (by omega), ok_bind,
        h.requiredSize (by decide) hsize (by omega) (by omega), ok_bind,
        refuseIf_false (by
          have hlimit : kMaxSpeakerDimension = 2 ^ 20 := rfl
          have hsizeLimit : kMaxSpeakerBytes = 2 ^ 24 := rfl
          have hsizes : maxSize / 4 = 2 ^ 62 - 1 := rfl
          simp only [Bool.or_eq_false_iff, decide_eq_false_iff_not, bne_eq_false_iff_eq]
          omega), ok_bind,
        h.expectLit (by decide) hscalar (by decide) (by decide), ok_bind]
      constructor
      · rintro ⟨r, hr⟩
        obtain ⟨a, ha, -⟩ := exists_of_bind hr
        exact plain_of_readArtifact h hpath ha
      · intro hplain
        obtain ⟨s, hs, -⟩ := readArtifact_of_plain h hpath (sha256?_some hhash).1 hseen hplain
        refine ⟨(floats bytes, s), ?_⟩
        have hs' : readArtifact sha place.tree (.object fields) size.toNat kMaxSpeakerBytes
          "prepared voice speaker SHA-256 mismatch" = .ok (bytes, s) := hs
        rw [hs', ok_bind]
        dsimp only
        rw [refuseIf_false, ok_bind]
        rw [List.any_eq_false]
        intro value hvalue
        have := List.all_eq_true.mp hfinite value hvalue
        rw [isfinite_eq, this]
        decide
  · cases hverified

theorem int_of_requiredInteger (h : Twin fields d) {name : String} (hname : isPlain name = true) {w : Value} {n : Int}
    (hget : Dict.get? d (PyStr.lit name) = some w) (hread : requiredInteger (.object fields) name = .ok n) :
    ∃ m, w = .int m := by
  obtain ⟨v, hv, hdenotes, -⟩ := h.field hname hget
  unfold requiredInteger at hread
  rw [hv] at hread
  cases v with
  | numberInteger a =>
    cases w with
    | int m => exact ⟨m, rfl⟩
    | _ => exact hdenotes.elim
  | numberUnsigned a =>
    cases w with
    | int m => exact ⟨m, rfl⟩
    | _ => exact hdenotes.elim
  | _ => cases hread

/-- The dimensions of codes that pass the check are far from the limits of the machine. -/
theorem rvq_bounds {codebooks frames size : Int} (hpos : 0 < codebooks) (hmax : codebooks ≤ maxRvqCodebooks)
    (hframesPos : 0 < frames) (hframesMax : frames ≤ maxRvqFrames) (hsize : size = (codebooks * frames * 11 + 7) / 8) :
    size.toNat = rvqBytes (codebooks.toNat * frames.toNat) ∧ codebooks.toNat * frames.toNat ≤ 2 ^ 26 ∧
      codebooks.toNat ≤ maxSize / frames.toNat := by
  obtain ⟨c, rfl⟩ := Int.eq_ofNat_of_zero_le hpos.le
  obtain ⟨f, rfl⟩ := Int.eq_ofNat_of_zero_le hframesPos.le
  have hc : c ≤ 64 := by
    have : (c : Int) ≤ 64 := hmax
    omega
  have hf : f ≤ 2 ^ 20 := by
    have : (f : Int) ≤ 2 ^ 20 := hframesMax
    omega
  have hcount : c * f ≤ 64 * 2 ^ 20 := Nat.mul_le_mul hc hf
  simp only [Int.toNat_natCast]
  refine ⟨?_, hcount, ?_⟩
  · have hcast : (c : Int) * f = ((c * f : Nat) : Int) := by push_cast; rfl
    rw [hsize, hcast]
    unfold rvqBytes kRvqCodeBits
    omega
  · rw [Nat.le_div_iff_mul_le (by omega)]
    exact hcount.trans (by decide)

/-- The codes load exactly when their path is plain and `bits_per_code` is an integer. -/
theorem loadCodes_iff {context : PreparedContext} (h : Twin fields d) {bits : Value} (hpath : str? d "path" = some path)
    (hbits : Dict.get? d (PyStr.lit "bits_per_code") = some bits)
    (hcodebooks : int? d "codebooks" = some context.numCodebooks) (hverified : verifyRvq sha place d = .ok ()) :
    (∃ r, loadCodes sha place.tree context (.object fields) = .ok r) ↔ Plain path ∧ ∃ n, bits = .int n := by
  unfold verifyRvq at hverified
  split at hverified
  · rename_i codebooks frames size hcodebooks' hframes hsize
    rw [hcodebooks] at hcodebooks'
    cases hcodebooks'
    obtain ⟨_, hbounds, hverified⟩ := exists_of_bind hverified
    simp only [require_ok, Bool.and_eq_true, decide_eq_true_eq] at hbounds
    obtain ⟨⟨⟨hpos, hmax⟩, hframesPos⟩, hframesMax⟩ := hbounds
    split at hverified
    · rename_i path' hash hpath' hhash
      rw [hpath] at hpath'
      cases hpath'
      obtain ⟨_, hlayout, hverified⟩ := exists_of_bind hverified
      obtain ⟨bytes, hartifact, -⟩ := exists_of_bind hverified
      simp only [require_ok, Bool.and_eq_true, decide_eq_true_eq, beq_iff_eq, hbits, Option.any_some] at hlayout
      obtain ⟨⟨⟨heleven, hlayout⟩, hsizeEq⟩, hsizeMax⟩ := hlayout
      have hseen := seen_of_verified hartifact
      obtain ⟨hsizeNat, hcount, hfits⟩ := rvq_bounds hpos hmax hframesPos hframesMax hsizeEq
      have hmax' : context.numCodebooks ≤ 64 := hmax
      have hframesMax' : frames ≤ 2 ^ 20 := hframesMax
      have hsizePos := hseen.pos
      have hsizeMax' : size ≤ 2 ^ 28 := hsizeMax
      unfold loadCodes
      rw [h.requiredInteger (by decide) hcodebooks (by omega) (by omega), ok_bind,
        h.requiredInteger (by decide) hframes (by omega) (by omega), ok_bind]
      constructor
      · rintro ⟨r, hr⟩
        obtain ⟨n, hn, hr⟩ := exists_of_bind hr
        obtain ⟨_, -, hr⟩ := exists_of_bind hr
        obtain ⟨_, -, hr⟩ := exists_of_bind hr
        obtain ⟨_, -, hr⟩ := exists_of_bind hr
        obtain ⟨_, -, hr⟩ := exists_of_bind hr
        obtain ⟨_, -, hr⟩ := exists_of_bind hr
        obtain ⟨_, -, hr⟩ := exists_of_bind hr
        obtain ⟨a, ha, -⟩ := exists_of_bind hr
        exact ⟨plain_of_readArtifact h hpath ha, int_of_requiredInteger h (by decide) hbits hn⟩
      · rintro ⟨hplain, n, rfl⟩
        have heleven : n = 11 := by simpa [equalsInt] using heleven
        subst heleven
        have hint : int? d "bits_per_code" = some 11 := by
          unfold int?
          rw [hbits]
        obtain ⟨s, hs, -⟩ := readArtifact_of_plain h hpath (sha256?_some hhash).1 hseen hplain
        obtain ⟨codes, hcodes⟩ := unpackLoop_some (context.numCodebooks.toNat * frames.toNat) 0 0 bytes (by
          have hlength := hseen.length
          unfold rvqBytes kRvqCodeBits at hsizeNat
          omega)
        have hs' : readArtifact sha place.tree (.object fields) size.toNat kMaxRvqBytes
          "prepared voice RVQ SHA-256 mismatch" = .ok (bytes, s) := hs
        refine ⟨(codes, frames, s), ?_⟩
        rw [h.requiredInteger (by decide) hint (by decide) (by decide), ok_bind, refuseIf_false, ok_bind,
          h.expectLit (by decide) hlayout (by decide) (by decide), ok_bind,
          refuseIf_false (by simpa using hfits), ok_bind]
        · dsimp only
          rw [refuseIf_false, ok_bind, h.requiredSize (by decide) hsize (by omega) (by omega), ok_bind,
            refuseIf_false, ok_bind, hs', ok_bind]
          · dsimp only
            unfold unpackCodes
            rw [hcodes]
            rfl
          · have hlimit : kMaxRvqBytes = 2 ^ 28 := rfl
            simp only [Bool.or_eq_false_iff, bne_eq_false_iff_eq, decide_eq_false_iff_not]
            omega
          · have hlimit : maxSize / kRvqCodeBits = 1676976733973595601 := rfl
            rw [decide_eq_false_iff_not]
            omega
        · have hlimit : kMaxRvqCodebooks = 64 := rfl
          have hframesLimit : kMaxRvqFrames = 2 ^ 20 := rfl
          have hcode : ((kRvqCodeBits : Nat) : Int) = 11 := rfl
          simp only [Bool.or_eq_false_iff, bne_eq_false_iff_eq, decide_eq_false_iff_not, true_and]
          omega
    · cases hverified
  · cases hverified

end Parts

end QwenTtsBridge.Voice.Loadable
