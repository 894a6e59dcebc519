import QwenTtsBridge.Protocol.FrameParser
import QwenTtsBridge.Protocol.ParserSafety
import QwenTtsBridge.Protocol.DecodeNormalises
import QwenTtsBridge.Session.Conforming
import QwenTtsBridge.Worker.PySilence
import QwenTtsBridge.Worker.PyRobustness
import QwenTtsBridge.Worker.NativeTerminal
import QwenTtsBridge.Worker.NativeRobustness
import QwenTtsBridge.Worker.NativeCancel
import QwenTtsBridge.Worker.Shutdown
import QwenTtsBridge.Worker.Queued
import QwenTtsBridge.Client.Watermark
import QwenTtsBridge.Client.Silence
import QwenTtsBridge.Client.Isolation
import QwenTtsBridge.Client.MalformedAudio
import QwenTtsBridge.Interop.Synthesize
import QwenTtsBridge.Interop.Envelope
import QwenTtsBridge.Interop.ErrorScope
import QwenTtsBridge.Interop.Emitted
import QwenTtsBridge.Lib.Inevitable
import QwenTtsBridge.Transport.CallbackQueue
import QwenTtsBridge.Lib.Interrupt
import QwenTtsBridge.Playback.AnimationRuntime
import QwenTtsBridge.Playback.EpochIsolation
import QwenTtsBridge.Voice.FrameReader
import QwenTtsBridge.Voice.RegistryAgreement
import QwenTtsBridge.Voice.Loadable
import QwenTtsBridge.Playback.ReceiptProbe
import QwenTtsBridge.Audio.Adapter
import QwenTtsBridge.Text.StressRendering
import QwenTtsBridge.Playback.QueueOrder
import QwenTtsBridge.Worker.NativeParams
import QwenTtsBridge.Voice.RoundTrip
import QwenTtsBridge.Client.Utf8Text
import QwenTtsBridge.Voice.PromptCache
import QwenTtsBridge.Worker.AudioLimit
import QwenTtsBridge.Audio.PlayoutCursor
import QwenTtsBridge.Audio.WavWriter
import QwenTtsBridge.Playback.RejectedChunk
import QwenTtsBridge.Playback.PlayoutProgress
import QwenTtsBridge.Audio.SaveWav
import QwenTtsBridge.Interop.Wire
import QwenTtsBridge.Playback.SpeechAnimationAdapter
