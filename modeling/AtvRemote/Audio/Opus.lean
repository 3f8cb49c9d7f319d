import AtvRemote.Lib.Chunks
import AtvRemote.Python.Number

/-!
# Audio frames

The sizes of `audio`, and its `OpusEncoder`.  The codec library behind the encoder is a
parameter: a state, and a function from a state and a PCM frame to a packet and the next
state.  The check of `encode` on the size of its argument is the type `PcmFrame`.
-/

namespace AtvRemote.Audio

open Lib

/-- `SAMPLE_RATE` -/
def sampleRate : Nat := 16000

/-- `FRAME_MS` -/
def frameMs : Nat := 20

/-- `FRAME_SAMPLES` -/
def frameSamples : Nat := sampleRate * frameMs / 1000

/-- `FRAME_BYTES` -/
def frameBytes : Nat := frameSamples * 2

/-- `FRAMES_PER_HDS_EVENT` -/
def framesPerHdsEvent : Nat := 5

theorem frameBytes_pos : 0 < frameBytes := by decide

/-- A byte string of exactly `FRAME_BYTES` bytes. -/
abbrev PcmFrame := {b : Bytes // b.length = frameBytes}

/-- A byte string that is too short for a frame. -/
abbrev PartialFrame := {b : Bytes // b.length < frameBytes}

/-- The empty buffer. -/
def PartialFrame.empty : PartialFrame := ⟨[], frameBytes_pos⟩

/-- A partial frame filled up with zeros. -/
def PartialFrame.pad (b : PartialFrame) : PcmFrame :=
  ⟨b.1 ++ List.replicate (frameBytes - b.1.length) 0, by
    have := b.2
    rw [List.length_append, List.length_replicate]
    omega⟩

/-- The frames that the bytes make, and the partial frame left over. -/
def cutFrames (b : Bytes) : List PcmFrame × PartialFrame :=
  ((chunks frameBytes b).1, ⟨(chunks frameBytes b).2, length_chunks_snd_lt frameBytes_pos b⟩)

/-- `AudioFrame` -/
structure AudioFrame where
  /-- `data` -/
  data : Bytes
  /-- `rms` -/
  rms : Float64
deriving DecidableEq, Repr

/-- `OpusEncoder`: the codec library, and the level that `encode` reports beside a packet.  The
level is left open: `encode` computes it in floating point, and any function of the samples may
stand for it here. -/
structure OpusEncoder (ε : Type) where
  /-- The state of a new encoder. -/
  init : ε
  /-- One packet. -/
  packet : ε → PcmFrame → Bytes × ε
  /-- The root mean square of the samples. -/
  rms : PcmFrame → Float64

/-- The encoder whose packets are the PCM frames themselves, on the level of silence. -/
def OpusEncoder.verbatim : OpusEncoder Unit where
  init := ()
  packet state pcm := (pcm.1, state)
  rms _ := ⟨0⟩

namespace OpusEncoder

variable {ε : Type} (opus : OpusEncoder ε)

/-- `encode` -/
def encode (state : ε) (pcm : PcmFrame) : AudioFrame × ε :=
  let (data, state) := opus.packet state pcm
  (⟨data, opus.rms pcm⟩, state)

/-- `encode` on one frame after the other. -/
def encodeAll : ε → List PcmFrame → List AudioFrame × ε
  | state, [] => ([], state)
  | state, pcm :: rest =>
      let (frame, state) := opus.encode state pcm
      let (frames, state) := encodeAll state rest
      (frame :: frames, state)

/-- Encoding goes on from the state it stopped in. -/
theorem encodeAll_append (state : ε) (xs ys : List PcmFrame) :
    opus.encodeAll state (xs ++ ys) =
      ((opus.encodeAll state xs).1 ++ (opus.encodeAll (opus.encodeAll state xs).2 ys).1,
        (opus.encodeAll (opus.encodeAll state xs).2 ys).2) := by
  induction xs generalizing state with
  | nil => rfl
  | cons x xs ih => simp only [List.cons_append, encodeAll, ih]

/-- One packet per frame. -/
theorem length_encodeAll (state : ε) (xs : List PcmFrame) :
    (opus.encodeAll state xs).1.length = xs.length := by
  induction xs generalizing state with
  | nil => rfl
  | cons x xs ih => simp only [encodeAll, List.length_cons, ih]

end OpusEncoder

/-- The number of whole frames. -/
theorem length_cutFrames (b : Bytes) : (cutFrames b).1.length = b.length / frameBytes :=
  length_chunks_fst frameBytes_pos b

/-- Cutting as the bytes come in. -/
theorem cutFrames_append (xs ys : Bytes) :
    (cutFrames (xs ++ ys)).1 =
        (cutFrames xs).1 ++ (cutFrames ((cutFrames xs).2.1 ++ ys)).1 ∧
      (cutFrames (xs ++ ys)).2 = (cutFrames ((cutFrames xs).2.1 ++ ys)).2 := by
  have h := chunks_append frameBytes_pos xs ys
  refine ⟨?_, Subtype.ext ?_⟩
  · simp only [cutFrames, h]
  · simp only [cutFrames, h]

end AtvRemote.Audio
