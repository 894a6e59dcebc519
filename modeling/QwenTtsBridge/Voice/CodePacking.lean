/-
  QwenTtsBridge.Voice.CodePacking — `pack_codes` and `unpack_codes`
  (`prepared_voice_reference.cpp`).

  Codes are 11 bits wide and go into bytes least significant bit first. Both functions keep
  an accumulator with the bits that are between a code and a byte. As numbers
  (`Nat.ofDigits`) the codes and the bytes are the same: what is left of the input, shifted
  behind the accumulator, does not change from step to step (`packLoop_ok`, `refill_value`).

  `pack_codes` allocates its output first and then writes to it by index; a write past its
  end would be an error of its own (`PackError.outOfBounds`). Before a byte is taken out the
  accumulator has at most 18 bits, so it is a natural number here.
-/

import QwenTtsBridge.Voice.PreparedReference
import QwenTtsBridge.Lib.Digits

namespace QwenTtsBridge.Voice.Prepared

open QwenTtsBridge.Lib.Digits

/-! ## `pack_codes` -/

inductive PackError where
  /-- "prepared voice RVQ code is outside the 11-bit range" -/
  | outsideRange
  | outOfBounds
  deriving DecidableEq, Repr

structure Packer where
  output : Bytes
  accumulator : Nat := 0
  bits : Nat := 0
  outputIndex : Nat := 0
  deriving DecidableEq, Repr

/-- `output[output_index] = accumulator & 0xff`. -/
def Packer.store (p : Packer) : Except PackError Bytes :=
  if p.outputIndex < p.output.length then
    .ok (p.output.set p.outputIndex (UInt8.ofNat (p.accumulator &&& 0xff)))
  else .error .outOfBounds

/-- The inner loop, which goes round `bits / 8` times. -/
def drain : Nat → Packer → Except PackError Packer
  | 0, p => .ok p
  | rounds + 1, p =>
    match p.store with
    | .error e => .error e
    | .ok output => drain rounds ⟨output, p.accumulator >>> 8, p.bits - 8, p.outputIndex + 1⟩

def Packer.take (p : Packer) (code : Nat) : Packer :=
  { p with accumulator := p.accumulator ||| code <<< p.bits, bits := p.bits + kRvqCodeBits }

def packLoop : List Int → Packer → Except PackError Packer
  | [], p => .ok p
  | code :: codes, p =>
    if code < 0 ∨ (kMaxRvqCode : Int) < code then .error .outsideRange
    else
      match drain ((p.take code.toNat).bits / 8) (p.take code.toNat) with
      | .error e => .error e
      | .ok p => packLoop codes p

def packCodes (codes : List Int) : Except PackError Bytes :=
  match packLoop codes ⟨List.replicate ((codes.length * kRvqCodeBits + 7) / 8) 0, 0, 0, 0⟩ with
  | .error e => .error e
  | .ok p => if 0 < p.bits then p.store else .ok p.output

/-! ## Bytes and codes as numbers -/

def byteValue (bytes : Bytes) : Nat := Nat.ofDigits 256 (bytes.map UInt8.toNat)

def codeValue (codes : List Nat) : Nat := Nat.ofDigits 2048 codes

/-- Bit `i` of a stream of bytes. -/
def bitAt (bytes : Bytes) (i : Nat) : Bool := (bytes.getD (i / 8) 0).toNat.testBit (i % 8)

theorem byteValue_append (a b : Bytes) : byteValue (a ++ b) = byteValue a + 256 ^ a.length * byteValue b := by
  unfold byteValue
  rw [List.map_append, Nat.ofDigits_append, List.length_map]

theorem bitAt_eq (bytes : Bytes) (i : Nat) : bitAt bytes i = (byteValue bytes).testBit i := by
  have hdigits : ∀ d ∈ bytes.map UInt8.toNat, d < 2 ^ 8 := by
    intro d hd
    obtain ⟨b, -, rfl⟩ := List.mem_map.mp hd
    exact b.toNat_lt
  have hvalue := testBit_ofDigits (by decide) hdigits i
  unfold bitAt byteValue
  rw [show 256 = 2 ^ 8 from rfl, hvalue]
  congr 1
  rw [List.getD_eq_getElem?_getD, List.getD_eq_getElem?_getD, List.getElem?_map]
  cases bytes[i / 8]? <;> rfl

theorem codeValue_lt {codes : List Nat} (h : ∀ code ∈ codes, code < 2048) : codeValue codes < 2 ^ (11 * codes.length) := by
  have hlt := Nat.ofDigits_lt_base_pow_length (by decide : 1 < 2048) h
  rwa [show 2048 = 2 ^ 11 from rfl, ← Nat.pow_mul] at hlt

/-! ## Packing -/

theorem byteValue_cons (b : UInt8) (bytes : Bytes) : byteValue (b :: bytes) = b.toNat + 256 * byteValue bytes := rfl

theorem toNat_low (n : Nat) : (UInt8.ofNat (n &&& 0xff)).toNat = n % 256 := by
  rw [show (0xff : Nat) = 2 ^ 8 - 1 from rfl, Nat.and_two_pow_sub_one_eq_mod]
  simp

section Pack

variable {p p' : Packer} {written stored : Bytes} {room : Nat}

/-- The bytes `written`, and `room` bytes that are still zero. -/
structure Laid (p : Packer) (written : Bytes) (room : Nat) : Prop where
  output : p.output = written ++ List.replicate room 0
  index : p.outputIndex = written.length

theorem Laid.store (h : Laid p written (room + 1)) :
    p.store = .ok (written ++ [UInt8.ofNat (p.accumulator &&& 0xff)] ++ List.replicate room 0) := by
  unfold Packer.store
  rw [if_pos (by rw [h.output, h.index, List.length_append, List.length_replicate]; omega), h.output, h.index,
    List.set_append_right _ _ (Nat.le_refl _), Nat.sub_self, List.replicate_succ, List.set_cons_zero, List.append_assoc]
  rfl

theorem drain_ok {rounds : Nat} (h : Laid p written room) (hroom : rounds ≤ room) : ∃ p' stored,
    drain rounds p = .ok p' ∧ Laid p' (written ++ stored) (room - rounds) ∧ stored.length = rounds ∧
      p'.accumulator = p.accumulator / 256 ^ rounds ∧ p'.bits = p.bits - 8 * rounds ∧
      byteValue stored = p.accumulator % 256 ^ rounds := by
  induction rounds generalizing p written room with
  | zero =>
    refine ⟨p, [], rfl, by rwa [List.append_nil], rfl, by simp, by simp, ?_⟩
    rw [Nat.pow_zero, Nat.mod_one]
    rfl
  | succ rounds ih =>
    obtain ⟨room, rfl⟩ : ∃ n, room = n + 1 := ⟨room - 1, by omega⟩
    have hnext : Laid ⟨written ++ [UInt8.ofNat (p.accumulator &&& 0xff)] ++ List.replicate room 0, p.accumulator >>> 8,
        p.bits - 8, p.outputIndex + 1⟩ (written ++ [UInt8.ofNat (p.accumulator &&& 0xff)]) room :=
      ⟨rfl, by rw [h.index]; simp⟩
    obtain ⟨p', stored, hdrain, hlaid, hlength, hacc, hbits, hvalue⟩ := ih hnext (by omega)
    refine ⟨p', UInt8.ofNat (p.accumulator &&& 0xff) :: stored, ?_, ?_, by simp [hlength], ?_, ?_, ?_⟩
    · dsimp only [drain]
      rw [h.store]
      exact hdrain
    · rw [List.append_assoc] at hlaid
      rwa [Nat.add_sub_add_right]
    · rw [hacc, Nat.shiftRight_eq_div_pow, show 2 ^ 8 = 256 from rfl, Nat.div_div_eq_div_mul, ← Nat.pow_succ']
    · rw [hbits]
      dsimp only
      omega
    · rw [byteValue_cons, hvalue, toNat_low, Nat.pow_succ, Nat.mul_comm _ 256, Nat.mod_mul, Nat.shiftRight_eq_div_pow]

/-- Between two codes fewer than eight bits wait. -/
structure Packing (p : Packer) (written : Bytes) (room : Nat) : Prop extends Laid p written room where
  few : p.bits < 8
  fits : p.accumulator < 2 ^ p.bits

/-- One code. -/
theorem Packing.take_drain (h : Packing p written room) {code : Nat} (hcode : code < 2048) (hroom : p.bits + 11 ≤ 8 * room + 7) :
    ∃ p' stored, drain ((p.take code).bits / 8) (p.take code) = .ok p' ∧
      Packing p' (written ++ stored) (room - stored.length) ∧ stored.length ≤ room ∧
      8 * stored.length + p'.bits = p.bits + 11 ∧
      byteValue stored + 256 ^ stored.length * p'.accumulator = p.accumulator + 2 ^ p.bits * code := by
  have hbits : (p.take code).bits = p.bits + 11 := rfl
  have hacc : (p.take code).accumulator = p.accumulator + 2 ^ p.bits * code := or_shiftLeft h.fits code
  have hlaid : Laid (p.take code) written room := ⟨h.output, h.index⟩
  have hrounds : (p.take code).bits / 8 ≤ room := by omega
  obtain ⟨p', stored, hdrain, hlaid', hlength, hacc', hbits', hvalue⟩ := drain_ok hlaid hrounds
  have hlt : (p.take code).accumulator < 2 ^ (p.bits + 11) := by
    rw [hacc, Nat.pow_add]
    calc p.accumulator + 2 ^ p.bits * code
        < 2 ^ p.bits + 2 ^ p.bits * code := Nat.add_lt_add_right h.fits _
      _ = 2 ^ p.bits * (code + 1) := by rw [Nat.mul_add, Nat.mul_one, Nat.add_comm]
      _ ≤ 2 ^ p.bits * 2 ^ 11 := Nat.mul_le_mul_left _ hcode
  have hsum : 8 * stored.length + p'.bits = p.bits + 11 := by
    rw [hbits', hlength, hbits]
    omega
  refine ⟨p', stored, hdrain, ⟨by rwa [hlength], by omega, ?_⟩, by omega, hsum, ?_⟩
  · rw [hacc', ← hlength]
    refine Nat.div_lt_of_lt_mul ?_
    rwa [show 256 = 2 ^ 8 from rfl, ← Nat.pow_mul, ← Nat.pow_add, hsum]
  · rw [hvalue, hacc', hlength, Nat.mod_add_div, hacc]

theorem packLoop_cons {code : Nat} {codes : List Int} (hcode : code < 2048)
    (hdrain : drain ((p.take code).bits / 8) (p.take code) = .ok p') :
    packLoop (Int.ofNat code :: codes) p = packLoop codes p' := by
  have hrange : ¬ (Int.ofNat code < 0 ∨ (kMaxRvqCode : Int) < Int.ofNat code) := by
    rw [show (kMaxRvqCode : Int) = 2047 from rfl, Int.ofNat_eq_natCast]
    omega
  dsimp only [packLoop]
  rw [if_neg hrange, show (Int.ofNat code).toNat = code from rfl, hdrain]

theorem codeValue_cons (code : Nat) (codes : List Nat) : codeValue (code :: codes) = code + 2048 * codeValue codes := rfl

theorem Packing.packLoop_ok (h : Packing p written room) {codes : List Nat} (hcodes : ∀ code ∈ codes, code < 2048)
    (hroom : p.bits + 11 * codes.length ≤ 8 * room) : ∃ p' stored,
      packLoop (codes.map Int.ofNat) p = .ok p' ∧ Packing p' (written ++ stored) (room - stored.length) ∧
      stored.length ≤ room ∧ 8 * stored.length + p'.bits = p.bits + 11 * codes.length ∧
      byteValue stored + 256 ^ stored.length * p'.accumulator = p.accumulator + 2 ^ p.bits * codeValue codes := by
  induction codes generalizing p written room with
  | nil =>
    refine ⟨p, [], rfl, by rwa [List.append_nil], Nat.zero_le _, Nat.zero_add _, ?_⟩
    show 0 + 1 * p.accumulator = p.accumulator + 2 ^ p.bits * 0
    omega
  | cons code codes ih =>
    rw [List.length_cons] at hroom
    have hcode : code < 2048 := hcodes code (List.mem_cons_self ..)
    obtain ⟨p₁, first, hdrain, hpacking, hfirst, hbits, hvalue⟩ := h.take_drain hcode (by omega)
    obtain ⟨p', rest, hloop, hpacking', hrest, hbits', hvalue'⟩ :=
      ih hpacking (fun c hc => hcodes c (List.mem_cons_of_mem _ hc)) (by omega)
    refine ⟨p', first ++ rest, ?_, ?_, ?_, ?_, ?_⟩
    · rw [List.map_cons, packLoop_cons hcode hdrain]
      exact hloop
    · rwa [← List.append_assoc, List.length_append, ← Nat.sub_sub]
    · rw [List.length_append]
      omega
    · rw [List.length_append, List.length_cons]
      omega
    · rw [byteValue_append, List.length_append, Nat.pow_add, codeValue_cons]
      calc byteValue first + 256 ^ first.length * byteValue rest + 256 ^ first.length * 256 ^ rest.length * p'.accumulator
          = byteValue first + 256 ^ first.length * (byteValue rest + 256 ^ rest.length * p'.accumulator) := by ring
        _ = (byteValue first + 256 ^ first.length * p₁.accumulator) + 256 ^ first.length * 2 ^ p₁.bits * codeValue codes := by
          rw [hvalue']
          ring
        _ = p.accumulator + 2 ^ p.bits * code + 2 ^ (p.bits + 11) * codeValue codes := by
          rw [hvalue, show 256 = 2 ^ 8 from rfl, ← Nat.pow_mul, ← Nat.pow_add, hbits]
        _ = p.accumulator + 2 ^ p.bits * (code + 2048 * codeValue codes) := by
          rw [Nat.pow_add]
          ring

theorem packing_start (room : Nat) : Packing ⟨List.replicate room 0, 0, 0, 0⟩ [] room :=
  ⟨⟨rfl, rfl⟩, Nat.succ_pos 7, Nat.one_pos⟩

/-- Codes in range are packed into as many bytes as they need. -/
theorem packCodes_ok {codes : List Nat} (h : ∀ code ∈ codes, code < 2048) : ∃ bytes,
    packCodes (codes.map Int.ofNat) = .ok bytes ∧ bytes.length = (11 * codes.length + 7) / 8 ∧
      byteValue bytes = codeValue codes := by
  have hroom : (codes.map Int.ofNat).length * kRvqCodeBits = 11 * codes.length := by
    rw [List.length_map, show kRvqCodeBits = 11 from rfl, Nat.mul_comm]
  obtain ⟨p, stored, hloop, hpacking, hle, hbits, hvalue⟩ :=
    (packing_start ((11 * codes.length + 7) / 8)).packLoop_ok h (by dsimp only; omega)
  unfold packCodes
  rw [hroom, hloop]
  dsimp only at hbits hvalue ⊢
  rw [Nat.zero_add] at hbits hvalue
  rw [Nat.pow_zero, Nat.one_mul] at hvalue
  by_cases hnone : 0 < p.bits
  · have hone : (11 * codes.length + 7) / 8 - stored.length = 0 + 1 := by
      have := hpacking.few
      omega
    rw [hone] at hpacking
    have hacc : p.accumulator < 256 := Nat.lt_of_lt_of_le hpacking.fits (Nat.pow_le_pow_right (by decide) (by have := hpacking.few; omega) : 2 ^ p.bits ≤ 2 ^ 8)
    rw [if_pos hnone, hpacking.store]
    refine ⟨_, rfl, ?_, ?_⟩
    · simp only [List.nil_append, List.length_append, List.length_cons, List.length_nil, List.length_replicate]
      omega
    · rw [List.nil_append, List.replicate_zero, List.append_nil, byteValue_append, ← hvalue, byteValue_cons, toNat_low,
        Nat.mod_eq_of_lt hacc]
      rfl
  · have hzero : p.bits = 0 := Nat.eq_zero_of_not_pos hnone
    have hacc : p.accumulator = 0 := by
      have hfits := hpacking.fits
      rw [hzero] at hfits
      omega
    have hfull : (11 * codes.length + 7) / 8 - stored.length = 0 := by omega
    rw [if_neg hnone, hpacking.output, hfull]
    refine ⟨_, rfl, ?_, ?_⟩
    · simp only [List.nil_append, List.length_append, List.replicate_zero, List.length_nil]
      omega
    · rw [List.nil_append, List.replicate_zero, List.append_nil, ← hvalue, hacc]
      rfl

/-- The code is in the 11-bit range. -/
def InRange (code : Int) : Prop := 0 ≤ code ∧ code ≤ 2047

theorem Packing.packLoop_refused (h : Packing p written room) {codes : List Int} (hcodes : ∃ code ∈ codes, ¬ InRange code)
    (hroom : p.bits + 11 * codes.length ≤ 8 * room) : packLoop codes p = .error .outsideRange := by
  induction codes generalizing p written room with
  | nil =>
    obtain ⟨code, hcode, -⟩ := hcodes
    cases hcode
  | cons code codes ih =>
    rw [List.length_cons] at hroom
    by_cases hcode : InRange code
    · obtain ⟨n, rfl⟩ := Int.eq_ofNat_of_zero_le hcode.1
      have hn : n < 2048 := by
        have := hcode.2
        omega
      have hrest : ∃ c ∈ codes, ¬ InRange c := by
        obtain ⟨c, hc, hbad⟩ := hcodes
        rcases List.mem_cons.mp hc with rfl | hc
        · exact (hbad hcode).elim
        · exact ⟨c, hc, hbad⟩
      obtain ⟨p₁, first, hdrain, hpacking, hfirst, hbits, -⟩ := h.take_drain hn (by omega)
      rw [show (n : Int) = Int.ofNat n from rfl, packLoop_cons hn hdrain]
      exact ih hpacking hrest (by omega)
    · refine if_pos ?_
      rw [show (kMaxRvqCode : Int) = 2047 from rfl]
      unfold InRange at hcode
      omega

theorem packCodes_refused {codes : List Int} (h : ∃ code ∈ codes, ¬ InRange code) :
    packCodes codes = .error .outsideRange := by
  unfold packCodes
  rw [(packing_start _).packLoop_refused h (by rw [show kRvqCodeBits = 11 from rfl]; dsimp only; omega)]

end Pack

/-! ## Unpacking -/

theorem refill_value {accumulator bits accumulator' bits' : Nat} {input input' : Bytes} (hfits : accumulator < 2 ^ bits)
    (h : refill accumulator bits input = some (accumulator', bits', input')) :
    accumulator' < 2 ^ bits' ∧ 11 ≤ bits' ∧ bits' + 8 * input'.length = bits + 8 * input.length ∧
      accumulator' + 2 ^ bits' * byteValue input' = accumulator + 2 ^ bits * byteValue input := by
  induction input generalizing accumulator bits with
  | nil =>
    unfold refill at h
    split at h
    · cases h
    · rename_i hbits
      cases h
      exact ⟨hfits, Nat.not_lt.mp hbits, rfl, rfl⟩
  | cons byte input ih =>
    unfold refill at h
    split at h
    · rw [or_shiftLeft hfits] at h
      have hbyte := byte.toNat_lt
      have hnext : accumulator + 2 ^ bits * byte.toNat < 2 ^ (bits + 8) := by
        rw [Nat.pow_add]
        calc accumulator + 2 ^ bits * byte.toNat
            < 2 ^ bits + 2 ^ bits * byte.toNat := Nat.add_lt_add_right hfits _
          _ = 2 ^ bits * (byte.toNat + 1) := by rw [Nat.mul_add, Nat.mul_one, Nat.add_comm]
          _ ≤ 2 ^ bits * 2 ^ 8 := Nat.mul_le_mul_left _ hbyte
      obtain ⟨hfits', hle, hlength, hvalue⟩ := ih hnext h
      refine ⟨hfits', hle, by rw [hlength, List.length_cons]; omega, ?_⟩
      rw [hvalue, byteValue_cons, Nat.pow_add]
      ring
    · rename_i hbits
      cases h
      exact ⟨hfits, Nat.not_lt.mp hbits, rfl, rfl⟩

/-- There are bits for one code. -/
theorem refill_some (accumulator bits : Nat) (input : Bytes) (h : 11 ≤ bits + 8 * input.length) :
    ∃ accumulator' bits' input', refill accumulator bits input = some (accumulator', bits', input') ∧ 11 ≤ bits' ∧
      bits' + 8 * input'.length = bits + 8 * input.length := by
  induction input generalizing accumulator bits with
  | nil =>
    have hbits : ¬ bits < kRvqCodeBits := by
      simp only [List.length_nil, Nat.mul_zero, Nat.add_zero] at h
      exact Nat.not_lt.mpr h
    exact ⟨accumulator, bits, [], if_neg hbits, Nat.not_lt.mp hbits, rfl⟩
  | cons byte input ih =>
    unfold refill
    by_cases hbits : bits < kRvqCodeBits
    · rw [if_pos hbits]
      simp only [List.length_cons] at h ⊢
      obtain ⟨accumulator', bits', input', heq, hle, hsum⟩ :=
        ih (accumulator ||| byte.toNat <<< bits) (bits + 8) (by omega)
      exact ⟨accumulator', bits', input', heq, hle, by omega⟩
    · rw [if_neg hbits]
      exact ⟨accumulator, bits, byte :: input, rfl, Nat.not_lt.mp hbits, rfl⟩

theorem unpackLoop_some (count accumulator bits : Nat) (input : Bytes) (h : 11 * count ≤ bits + 8 * input.length) :
    ∃ codes, unpackLoop count accumulator bits input = some codes := by
  induction count generalizing accumulator bits input with
  | zero => exact ⟨[], rfl⟩
  | succ count ih =>
    obtain ⟨accumulator', bits', input', heq, hle, hsum⟩ := refill_some accumulator bits input (by omega)
    have hcode : kRvqCodeBits = 11 := rfl
    obtain ⟨codes, hcodes⟩ := ih (accumulator' >>> kRvqCodeBits) (bits' - kRvqCodeBits) input' (by omega)
    refine ⟨(accumulator' &&& kMaxRvqCode) :: codes, ?_⟩
    unfold unpackLoop
    rw [heq]
    dsimp only
    rw [hcodes, Option.map_some]

theorem unpackLoop_succ {count accumulator bits : Nat} {input : Bytes} {codes : List Nat}
    (h : unpackLoop (count + 1) accumulator bits input = some codes) : ∃ accumulator' bits' input' rest,
      refill accumulator bits input = some (accumulator', bits', input') ∧
      unpackLoop count (accumulator' >>> kRvqCodeBits) (bits' - kRvqCodeBits) input' = some rest ∧
      codes = (accumulator' &&& kMaxRvqCode) :: rest := by
  unfold unpackLoop at h
  split at h
  · cases h
  · rename_i accumulator' bits' input' hrefill
    obtain ⟨rest, hrest, rfl⟩ := Option.map_eq_some_iff.mp h
    exact ⟨accumulator', bits', input', rest, hrefill, hrest, rfl⟩

theorem unpackLoop_value {count accumulator bits : Nat} {input : Bytes} {codes : List Nat} (hfits : accumulator < 2 ^ bits)
    (h : unpackLoop count accumulator bits input = some codes) :
    codes.length = count ∧ (∀ code ∈ codes, code < 2048) ∧ 11 * count ≤ bits + 8 * input.length ∧
      codeValue codes = (accumulator + 2 ^ bits * byteValue input) % 2 ^ (11 * count) := by
  induction count generalizing accumulator bits input codes with
  | zero =>
    cases h
    refine ⟨rfl, nofun, Nat.zero_le _, ?_⟩
    rw [Nat.mul_zero, Nat.pow_zero, Nat.mod_one]
    rfl
  | succ count ih =>
    obtain ⟨accumulator', bits', input', rest, hrefill, hrest, rfl⟩ := unpackLoop_succ h
    obtain ⟨hfits', hle, hlength, hvalue⟩ := refill_value hfits hrefill
    have hcode : accumulator' &&& kMaxRvqCode = accumulator' % 2048 := Nat.and_two_pow_sub_one_eq_mod accumulator' 11
    rw [show kRvqCodeBits = 11 from rfl, Nat.shiftRight_eq_div_pow, show 2 ^ 11 = 2048 from rfl] at hrest
    have hpow : 2 ^ bits' = 2048 * 2 ^ (bits' - 11) := by
      rw [show 2048 = 2 ^ 11 from rfl, ← Nat.pow_add, Nat.add_sub_cancel' hle]
    have hsmall : accumulator' / 2048 < 2 ^ (bits' - 11) := Nat.div_lt_of_lt_mul (hpow ▸ hfits')
    obtain ⟨hcount, hcodes, hbits, hrestValue⟩ := ih hsmall hrest
    refine ⟨by rw [List.length_cons, hcount], ?_, by omega, ?_⟩
    · intro code hmem
      rcases List.mem_cons.mp hmem with rfl | hmem
      · rw [hcode]
        exact Nat.mod_lt _ (by decide)
      · exact hcodes code hmem
    · have htotal : accumulator' + 2 ^ bits' * byteValue input' =
          accumulator' % 2048 + 2048 * (accumulator' / 2048 + 2 ^ (bits' - 11) * byteValue input') := by
        rw [hpow]
        conv_lhs => rw [← Nat.mod_add_div accumulator' 2048]
        ring
      have hlow : accumulator' % 2048 < 2048 := Nat.mod_lt _ (by decide)
      rw [codeValue_cons, hcode, hrestValue, ← hvalue, htotal, Nat.mul_succ, Nat.add_comm (11 * count) 11, Nat.pow_add,
        show 2 ^ 11 = 2048 from rfl, Nat.mod_mul, Nat.add_mul_mod_self_left, Nat.mod_eq_of_lt hlow,
        Nat.add_mul_div_left _ _ (by decide : 0 < 2048), Nat.div_eq_of_lt hlow, Nat.zero_add]

/-! ## The results -/

theorem unpackCodes_ok {bytes : Bytes} {count : Nat} {codes : List Nat} :
    unpackCodes bytes count = .ok codes ↔ unpackLoop count 0 0 bytes = some codes := by
  unfold unpackCodes
  cases unpackLoop count 0 0 bytes with
  | none => exact ⟨nofun, nofun⟩
  | some codes' => exact ⟨fun h => by cases h; rfl, fun h => by cases h; rfl⟩

theorem unpackCodes_value {bytes : Bytes} {count : Nat} {codes : List Nat} (h : unpackCodes bytes count = .ok codes) :
    codes.length = count ∧ (∀ code ∈ codes, code < 2048) ∧ 11 * count ≤ 8 * bytes.length ∧
      codeValue codes = byteValue bytes % 2 ^ (11 * count) := by
  obtain ⟨hlength, hcodes, hbits, hvalue⟩ := unpackLoop_value (by decide) (unpackCodes_ok.mp h)
  rw [Nat.zero_add] at hbits hvalue
  rw [Nat.pow_zero, Nat.one_mul] at hvalue
  exact ⟨hlength, hcodes, hbits, hvalue⟩

theorem unpackCodes_enough {bytes : Bytes} {count : Nat} (h : 11 * count ≤ 8 * bytes.length) :
    ∃ codes, unpackCodes bytes count = .ok codes := by
  obtain ⟨codes, hcodes⟩ := unpackLoop_some count 0 0 bytes (by omega)
  exact ⟨codes, unpackCodes_ok.mpr hcodes⟩

theorem unpackCodes_error_iff (bytes : Bytes) (count : Nat) :
    (∃ e, unpackCodes bytes count = .error e) ↔ 8 * bytes.length < 11 * count := by
  constructor
  · rintro ⟨e, he⟩
    by_contra hlt
    obtain ⟨codes, hcodes⟩ := unpackCodes_enough (Nat.not_lt.mp hlt)
    rw [he] at hcodes
    cases hcodes
  · intro hlt
    cases hresult : unpackCodes bytes count with
    | error e => exact ⟨e, rfl⟩
    | ok codes =>
      obtain ⟨-, -, hbits, -⟩ := unpackCodes_value hresult
      omega

/-- Unpacking gives back what was packed. -/
theorem unpack_pack {codes : List Nat} {bytes : Bytes} (h : ∀ code ∈ codes, code < 2048)
    (hlength : bytes.length = (11 * codes.length + 7) / 8) (hvalue : byteValue bytes = codeValue codes) :
    unpackCodes bytes codes.length = .ok codes := by
  obtain ⟨codes', hcodes'⟩ := unpackCodes_enough (by omega : 11 * codes.length ≤ 8 * bytes.length)
  obtain ⟨hlength', hrange, -, hvalue'⟩ := unpackCodes_value hcodes'
  rw [hvalue, Nat.mod_eq_of_lt (codeValue_lt h)] at hvalue'
  rw [hcodes', Nat.ofDigits_inj_of_len_eq (by decide) hlength' hrange h hvalue']

theorem ofNat_of_inRange {codes : List Int} (h : ∀ code ∈ codes, InRange code) :
    ∃ naturals : List Nat, codes = naturals.map Int.ofNat ∧ ∀ n ∈ naturals, n < 2048 := by
  refine ⟨codes.map Int.toNat, ?_, ?_⟩
  · rw [List.map_map]
    refine (List.map_id _).symm.trans (List.map_congr_left fun code hcode => ?_)
    exact (Int.toNat_of_nonneg (h code hcode).1).symm
  · intro n hn
    obtain ⟨code, hcode, rfl⟩ := List.mem_map.mp hn
    have := (h code hcode).2
    omega

theorem packing_is_exact :
    (∀ codes : List Int, (∀ code ∈ codes, InRange code) → ∃ bytes, packCodes codes = .ok bytes ∧
      bytes.length = (11 * codes.length + 7) / 8 ∧ (∀ i, 11 * codes.length ≤ i → bitAt bytes i = false) ∧
      unpackCodes bytes codes.length = .ok (codes.map Int.toNat)) ∧
    (∀ bytes count, (∃ e, unpackCodes bytes count = .error e) ↔ 8 * bytes.length < 11 * count) ∧
    (∀ bytes count codes, unpackCodes bytes count = .ok codes → ∃ packed, packCodes (codes.map Int.ofNat) = .ok packed ∧
      ∀ i, i < 11 * count → bitAt packed i = bitAt bytes i) ∧
    ∀ codes : List Int, (packCodes codes = .error .outsideRange ↔ ∃ code ∈ codes, ¬ InRange code) ∧
      packCodes codes ≠ .error .outOfBounds := by
  refine ⟨fun codes hrange => ?_, unpackCodes_error_iff, fun bytes count codes hunpack => ?_, fun codes => ?_⟩
  · obtain ⟨naturals, rfl, hnaturals⟩ := ofNat_of_inRange hrange
    obtain ⟨bytes, hpack, hlength, hvalue⟩ := packCodes_ok hnaturals
    have hsame : (naturals.map Int.ofNat).map Int.toNat = naturals := by
      rw [List.map_map]
      exact List.map_id _
    rw [List.length_map, hsame]
    refine ⟨bytes, hpack, hlength, fun i hi => ?_, unpack_pack hnaturals hlength hvalue⟩
    rw [bitAt_eq, hvalue]
    exact Nat.testBit_lt_two_pow (Nat.lt_of_lt_of_le (codeValue_lt hnaturals) (Nat.pow_le_pow_right (by decide) hi))
  · obtain ⟨-, hcodes, -, hvalue⟩ := unpackCodes_value hunpack
    obtain ⟨packed, hpack, -, hvalue'⟩ := packCodes_ok hcodes
    refine ⟨packed, hpack, fun i hi => ?_⟩
    rw [bitAt_eq, bitAt_eq, hvalue', hvalue, Nat.testBit_mod_two_pow, decide_eq_true hi, Bool.true_and]
  · by_cases hbad : ∃ code ∈ codes, ¬ InRange code
    · have hrefused := packCodes_refused hbad
      rw [hrefused]
      exact ⟨⟨fun _ => hbad, fun _ => rfl⟩, nofun⟩
    · have hrange : ∀ code ∈ codes, InRange code := fun code hcode => by
        by_contra hout
        exact hbad ⟨code, hcode, hout⟩
      obtain ⟨naturals, rfl, hnaturals⟩ := ofNat_of_inRange hrange
      obtain ⟨bytes, hpack, -⟩ := packCodes_ok hnaturals
      rw [hpack]
      exact ⟨⟨nofun, fun h => (hbad h).elim⟩, nofun⟩

end QwenTtsBridge.Voice.Prepared
