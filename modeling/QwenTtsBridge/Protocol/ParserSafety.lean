/-
  QwenTtsBridge.Protocol.ParserSafety — what a stream cannot do to the C++ parser
  (`protocol/framing/frame_parser.cpp`).

  Any thread of calls of `append`, `parse_next` and `clear` is a run. The limits are checked
  on the header alone, before the payload arrives, so a parser that waits for data holds
  less than one admissible frame unread (`waits_below_limit`). The consumed bytes that
  compaction leaves in front of these are fewer than its threshold (`Inv`).

  Proved: `framing_failure_is_bounded_and_sticky` — in every reachable state a fatal error
  is the answer until `clear`, a frame is of a known type and within its limit, and waiting
  is bounded; so a reader that drains the parser before each `append` holds a bounded
  buffer.
-/

import QwenTtsBridge.Protocol.FrameParser
import QwenTtsBridge.Lib.Transition
import Mathlib.Order.Nat

namespace QwenTtsBridge.Protocol.Framing.FrameParser

open QwenTtsBridge.Lib.Transition QwenTtsBridge.Lib.StreamParser ProtocolLimits

/-! ## Calls -/

def clear (_ : FrameParser) : FrameParser := {}

inductive Call where
  | append (data : Bytes)
  | parseNext
  | clear
  deriving DecidableEq, Repr

def call (p : FrameParser) : Call → FrameParser
  | .append data => p.append data
  | .parseNext => p.parseNext.1
  | .clear => p.clear

def step (p : FrameParser) (c : Call) : Option FrameParser := some (p.call c)

/-- Every interleaving of calls, on every byte stream. -/
abbrev Reachable : FrameParser → Prop := Reach step anyStep {}

/-! ## Consumed bytes -/

/-- The consumed bytes that are still in the buffer. -/
structure Bounded (p : FrameParser) : Prop where
  inside : p.readOffset ≤ p.buffer.length
  below : p.readOffset < compactThreshold

variable {p : FrameParser}

theorem compactBuffer_bounded (h : p.readOffset ≤ p.buffer.length) : p.compactBuffer.Bounded := by
  have hzero : 0 < compactThreshold := by decide
  unfold compactBuffer
  split
  · rename_i h0
    exact ⟨h, by omega⟩
  split
  · exact ⟨Nat.le_refl 0, hzero⟩
  split
  · exact ⟨Nat.zero_le _, hzero⟩
  · rename_i hkeep
    exact ⟨h, by omega⟩

theorem compactBuffer_length_le (p : FrameParser) : p.compactBuffer.buffer.length ≤ p.buffer.length := by
  unfold compactBuffer
  split
  · exact Nat.le_refl _
  split
  · exact Nat.zero_le _
  split
  · show (p.buffer.drop p.readOffset).length ≤ p.buffer.length
    rw [List.length_drop]
    omega
  · exact Nat.le_refl _

/-- What `parse_next` does to the buffer: nothing, or it moves past one frame and compacts. -/
theorem parseNext_buffer (p : FrameParser) :
    (p.parseNext.1.buffer = p.buffer ∧ p.parseNext.1.readOffset = p.readOffset) ∨
      ∃ n, n ≤ p.buffer.length - p.readOffset ∧
        p.parseNext.1 = ({ p with readOffset := p.readOffset + n } : FrameParser).compactBuffer := by
  cases hf : p.fatal with
  | true => exact .inl (by simp [parseNext, parseNextWith, hf])
  | false =>
    unfold parseNext
    rw [parseNextWith_eq compactBuffer p hf]
    split
    · exact .inl ⟨rfl, rfl⟩
    split
    · exact .inl ⟨rfl, rfl⟩
    simp only
    split
    · exact .inl ⟨rfl, rfl⟩
    split
    · exact .inl ⟨rfl, rfl⟩
    · rename_i hsize
      refine .inr ⟨_, Nat.le_of_not_lt hsize, ?_⟩
      rw [← hf]

theorem parseNext_bounded (h : p.Bounded) : p.parseNext.1.Bounded := by
  rcases parseNext_buffer p with ⟨hbuffer, hoffset⟩ | ⟨n, hn, heq⟩
  · exact ⟨by rw [hbuffer, hoffset]; exact h.inside, by rw [hoffset]; exact h.below⟩
  · have hinside := h.inside
    rw [heq]
    exact compactBuffer_bounded (show p.readOffset + n ≤ p.buffer.length by omega)

theorem parseNext_length_le (p : FrameParser) : p.parseNext.1.buffer.length ≤ p.buffer.length := by
  rcases parseNext_buffer p with ⟨hbuffer, -⟩ | ⟨n, -, heq⟩
  · exact (congrArg List.length hbuffer).le
  · rw [heq]
    exact compactBuffer_length_le _

theorem append_length_le (p : FrameParser) (data : Bytes) :
    (p.append data).buffer.length ≤ p.buffer.length + data.length := by
  unfold append
  split
  · exact Nat.le_add_right _ _
  · exact List.length_append.le

theorem call_bounded (h : p.Bounded) (c : Call) : (p.call c).Bounded := by
  cases c with
  | append data =>
    obtain ⟨hinside, -⟩ := append_refines p data h.inside
    refine ⟨hinside, ?_⟩
    show (p.append data).readOffset < compactThreshold
    unfold append
    split <;> exact h.below
  | parseNext => exact parseNext_bounded h
  | clear => exact ⟨Nat.le_refl 0, show 0 < compactThreshold by decide⟩

theorem reachable_bounded (h : Reachable p) : p.Bounded := by
  have hinit : Bounded {} := ⟨Nat.le_refl 0, by decide⟩
  refine h.inv hinit fun s c s' _ hs _ hstep => ?_
  cases hstep
  exact call_bounded hs c

/-! ## Answers -/

/-- The header of a frame that the parser returns or waits for. -/
theorem headerError_none {header : FrameHeader} (h : headerError header = none) :
    header.headerSize.toNat ≤ maxHeaderSize ∧ isKnownFrameType header.frameType = true ∧
      header.payloadSize.toNat ≤ maxPayloadSize header.frameType := by
  unfold headerError at h
  split at h
  · cases h
  split at h
  · cases h
  split at h
  · cases h
  rename_i hlarge
  split at h
  · cases h
  rename_i hknown
  split at h
  · cases h
  split at h
  · cases h
  rename_i hpayload
  exact ⟨Nat.le_of_not_lt hlarge, by simpa using hknown, Nat.le_of_not_lt hpayload⟩

theorem frame_is_admissible {frame : Frame} (h : p.parseNext.2 = .frameReady frame) :
    isKnownFrameType frame.header.frameType = true ∧
      frame.payload.length ≤ maxPayloadSize frame.header.frameType := by
  cases hf : p.fatal with
  | true => simp [parseNext, parseNextWith, hf] at h
  | false =>
    unfold parseNext at h
    rw [parseNextWith_eq compactBuffer p hf] at h
    split at h
    · cases h
    split at h
    · cases h
    simp only at h
    split at h
    · cases h
    rename_i hheader
    split at h
    · cases h
    · cases h
      obtain ⟨-, hknown, hpayload⟩ := headerError_none hheader
      exact ⟨hknown, (List.length_take_le _ _).trans hpayload⟩

/-- A parser that waits has not moved, and has less than one frame. -/
theorem waits_below_limit (h : p.parseNext.2 = .needMoreData) :
    p.parseNext.1 = p ∧ p.bufferedSize < maxHeaderSize + maxFramePayloadBytes := by
  cases hf : p.fatal with
  | true => simp [parseNext, parseNextWith, hf] at h
  | false =>
    unfold parseNext at h ⊢
    rw [parseNextWith_eq compactBuffer p hf] at h ⊢
    split at h
    · rename_i hshort
      rw [if_pos hshort]
      have hmin : minHeaderSize ≤ maxHeaderSize + maxFramePayloadBytes := by decide
      exact ⟨rfl, hshort.trans_le hmin⟩
    rename_i hshort
    split at h
    · cases h
    rename_i hmagic
    simp only at h
    split at h
    · cases h
    rename_i hheader
    split at h
    · rename_i hsize
      obtain ⟨hheaderSize, -, hpayload⟩ := headerError_none hheader
      have hlimit := maxPayloadSize_le (readHeader (p.buffer.drop p.readOffset)).frameType
      have hframe : frameSize (readHeader (p.buffer.drop p.readOffset)) ≤ maxHeaderSize + maxFramePayloadBytes :=
        Nat.add_le_add hheaderSize (hpayload.trans hlimit)
      simp only [if_neg hshort, if_neg hmagic, hheader, if_pos hsize]
      exact ⟨trivial, hsize.trans_le hframe⟩
    · cases h

/-- Stuck on an error. -/
def StuckOn (p : FrameParser) (e : ProtocolError × String) : Prop := p.fatal = true ∧ (p.fatalError, p.fatalMessage) = e

theorem parseNext_of_stuck {e : ProtocolError × String} (h : p.StuckOn e) : p.parseNext = (p, .fatalError e) := by
  obtain ⟨hf, rfl⟩ := h
  simp [parseNext, parseNextWith, hf]

theorem stuck_of_fatal {e : ProtocolError × String} (h : p.parseNext.2 = .fatalError e) : p.parseNext.1.StuckOn e := by
  cases hf : p.fatal with
  | true =>
    have hanswer : p.parseNext = (p, .fatalError (p.fatalError, p.fatalMessage)) := by simp [parseNext, parseNextWith, hf]
    rw [hanswer] at h ⊢
    cases h
    exact ⟨hf, rfl⟩
  | false =>
    unfold parseNext at h ⊢
    rw [parseNextWith_eq compactBuffer p hf] at h ⊢
    split at h
    · cases h
    rename_i hshort
    split at h
    · rename_i hmagic
      rw [if_neg hshort, if_pos hmagic]
      cases h
      exact ⟨rfl, rfl⟩
    rename_i hmagic
    simp only at h
    split at h
    · rename_i e' hheader
      simp only [if_neg hshort, if_neg hmagic, hheader]
      cases h
      exact ⟨rfl, rfl⟩
    · split at h <;> cases h

theorem call_stuck {e : ProtocolError × String} (h : p.StuckOn e) {c : Call} (hc : c ≠ .clear) : (p.call c).StuckOn e := by
  cases c with
  | append data =>
    have hsame : p.append data = p := by simp [append, h.1]
    show (p.append data).StuckOn e
    rw [hsame]
    exact h
  | parseNext =>
    show p.parseNext.1.StuckOn e
    rw [parseNext_of_stuck h]
    exact h
  | clear => exact absurd rfl hc

theorem fatal_is_sticky {e : ProtocolError × String} (h : p.parseNext.2 = .fatalError e) {p' : FrameParser}
    (hr : Reach step (fun _ c => c ≠ .clear) p.parseNext.1 p') : p'.parseNext.2 = .fatalError e := by
  have hstuck : p'.StuckOn e := by
    refine hr.inv (I := (StuckOn · e)) (stuck_of_fatal h) fun s c s' _ hs hc hstep => ?_
    cases hstep
    exact call_stuck hs hc
  rw [parseNext_of_stuck hstuck]

/-! ## Memory -/

/-- A reader that takes at most `n` bytes at a time, and only from a parser that has answered
    that it needs more data or that it has failed. -/
def Draining (n : Nat) (p : FrameParser) : Call → Prop
  | .append data => data.length ≤ n ∧ (p.parseNext.2 = .needMoreData ∨ p.fatal = true)
  | .parseNext | .clear => True

theorem waiting_length_lt (hb : p.Bounded) (h : p.parseNext.2 = .needMoreData) :
    p.buffer.length < maxHeaderSize + maxFramePayloadBytes + compactThreshold := by
  obtain ⟨-, hunread⟩ := waits_below_limit h
  have hbelow := hb.below
  unfold bufferedSize at hunread
  omega

theorem drained_length_lt {n : Nat} (h : Reach step (Draining n) {} p) :
    p.buffer.length < maxHeaderSize + maxFramePayloadBytes + compactThreshold + n := by
  have hinit : ({} : FrameParser).buffer.length < maxHeaderSize + maxFramePayloadBytes + compactThreshold + n := by
    have hpos : 0 < maxHeaderSize := by decide
    show 0 < _
    omega
  refine h.inv (I := fun p => p.buffer.length < maxHeaderSize + maxFramePayloadBytes + compactThreshold + n) hinit
    fun s c s' hr hs hok hstep => ?_
  cases hstep
  cases c with
  | append data =>
    obtain ⟨hdata, hwaits | hfatal⟩ := hok
    · have hlength := append_length_le s data
      have hwaiting := waiting_length_lt (reachable_bounded (hr.mono fun _ _ _ => trivial)) hwaits
      show (s.append data).buffer.length < _
      omega
    · have hsame : s.append data = s := by simp [append, hfatal]
      show (s.append data).buffer.length < _
      rw [hsame]
      exact hs
  | parseNext => exact (parseNext_length_le s).trans_lt hs
  | clear => exact hinit

/-- What `parse_next` answers in a state. -/
structure Safe (p : FrameParser) : Prop where
  sticky : ∀ e, p.parseNext.2 = .fatalError e →
    ∀ p', Reach step (fun _ c => c ≠ .clear) p.parseNext.1 p' → p'.parseNext.2 = .fatalError e
  admissible : ∀ frame, p.parseNext.2 = .frameReady frame →
    isKnownFrameType frame.header.frameType = true ∧
      frame.payload.length ≤ maxPayloadSize frame.header.frameType
  waiting : p.parseNext.2 = .needMoreData → p.parseNext.1.bufferedSize < maxHeaderSize + maxFramePayloadBytes

theorem framing_failure_is_bounded_and_sticky :
    (∀ p, Reachable p → Safe p) ∧
      ∀ n p, Reach step (Draining n) {} p →
        p.buffer.length < maxHeaderSize + maxFramePayloadBytes + compactThreshold + n := by
  refine ⟨fun p _ => ⟨fun e he p' hr => fatal_is_sticky he hr, fun frame hframe => frame_is_admissible hframe,
    fun hwaits => ?_⟩, fun n p h => drained_length_lt h⟩
  obtain ⟨hsame, hunread⟩ := waits_below_limit hwaits
  rw [hsame]
  exact hunread

end QwenTtsBridge.Protocol.Framing.FrameParser
