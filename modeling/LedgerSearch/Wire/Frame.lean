import LedgerSearch.Bytes
import LedgerSearch.Failure

/-
  Frames in a byte stream: a 32-bit length, whose top bit carries nothing, and that many bytes. The
  stream arrives in reads of any size and may fail between two of them. A length of zero, like the
  end of the input before a length, ends the stream.
-/

namespace LedgerSearch.Wire

/-- What one read of the stream gives; no data is the end of the input. -/
inductive Chunk where
  | data (bs : Bytes)
  | failure (text : String)
deriving DecidableEq

/-- Why reading stopped before enough bytes were there. -/
inductive Shortage where
  | ended
  | failed (text : String)
deriving DecidableEq

/-- The first `need` bytes, or those up to where the input fell short; and the input left. -/
def gather (need : Nat) : List Chunk → Bytes × Option Shortage × List Chunk
  | [] => ([], some .ended, [])
  | .failure text :: rest => ([], some (.failed text), rest)
  | .data [] :: rest => ([], some .ended, rest)
  | .data bs :: rest =>
    if need < bs.length then (bs.take need, none, .data (bs.drop need) :: rest)
    else if need = bs.length then (bs, none, rest)
    else
      let (more, shortage, rest) := gather (need - bs.length) rest
      (bs ++ more, shortage, rest)

/-- A bound on the reads and bytes that are left. -/
def inputSize : List Chunk → Nat
  | [] => 0
  | .failure _ :: rest => inputSize rest + 1
  | .data bs :: rest => inputSize rest + bs.length + 1

theorem inputSize_gather_le (need : Nat) (input : List Chunk) :
    inputSize (gather need input).2.2 ≤ inputSize input := by
  fun_induction gather need input with
  | case1 => simp [inputSize]
  | case2 need text rest => simp [inputSize]
  | case3 => simp [inputSize]
  | case4 need bs rest _ h => simp only [inputSize, List.length_drop]; omega
  | case5 => simp only [inputSize]; omega
  | case6 need bs rest _ _ _ more shortage left h ih =>
    simp only [h] at ih
    simp only [inputSize]
    omega

/-- Bytes that were gathered are gone from the input. -/
theorem inputSize_gather_lt {need : Nat} {input : List Chunk} (h : 0 < need)
    (full : (gather need input).2.1 = none) :
    inputSize (gather need input).2.2 < inputSize input := by
  fun_cases gather need input with
  | case1 => simp [gather] at full
  | case2 => simp [gather] at full
  | case3 => simp [gather] at full
  | case4 bs rest _ hlt => simp only [inputSize, List.length_drop]; omega
  | case5 => simp only [inputSize]; omega
  | case6 bs rest _ _ _ more shortage left hg =>
    have := inputSize_gather_le (need - bs.length) rest
    simp only [hg] at this
    simp only [inputSize]
    omega

/-- A stream of frames: what is still to come, and how many frames were read. -/
structure FrameStream where
  input : List Chunk
  maxFrame : Nat := 256 * 1024 * 1024
  frames : Nat := 0

namespace FrameStream

/-- The bit of a length that carries nothing. -/
def topBit : Nat := 0x80000000

/-- The end of the input after `got` of `need` bytes. -/
def truncated (got need : Nat) : Error := .decode (.unexpectedEnd got (need - got))

/-- The body of a frame of `length` bytes. -/
def body (s : FrameStream) (length : Nat) : Except Error (Option Bytes) × FrameStream :=
  let (bs, shortage, input) := gather length s.input
  let s := { s with input }
  match shortage with
  | none => (.ok (some bs), { s with frames := s.frames + 1 })
  | some .ended => (.error (truncated bs.length length), s)
  | some (.failed text) => (.error (.io text), s)

/-- The next frame, nothing at the end of the stream. After an error, too, reading goes on where the
    input stands. -/
def next (s : FrameStream) : Except Error (Option Bytes) × FrameStream :=
  let (bs, shortage, input) := gather 4 s.input
  let s := { s with input }
  match shortage with
  | some .ended => (if bs = [] then .ok none else .error (truncated bs.length 4), s)
  | some (.failed text) => (.error (.io text), s)
  | none =>
    let length := bigEndianNat bs % topBit
    if length = 0 then (.ok none, s)
    else if s.maxFrame < length then
      (.error (.decode (.lengthExceeded "frame" length s.maxFrame)), s)
    else s.body length

theorem inputSize_body_le (s : FrameStream) (length : Nat) :
    inputSize (s.body length).2.input ≤ inputSize s.input := by
  have h := inputSize_gather_le length s.input
  simp only [body]
  split <;> exact h

/-- A frame that was read is gone from the input. -/
theorem inputSize_next_lt {s s' : FrameStream} {bs : Bytes} (h : s.next = (.ok (some bs), s')) :
    inputSize s'.input < inputSize s.input := by
  have lt := @inputSize_gather_lt 4 s.input (by decide)
  revert h
  simp only [next]
  split
  · split <;> simp
  · simp
  · rename_i full
    split
    · simp
    · split
      · simp
      · intro h
        have le := inputSize_body_le { s with input := (gather 4 s.input).2.2 }
          (bigEndianNat (gather 4 s.input).1 % topBit)
        rw [h] at le
        exact Nat.lt_of_le_of_lt le (lt full)

/-- The frames up to the end of the stream or the first error, and how it ends. -/
def all (s : FrameStream) : List Bytes × Except Error Unit :=
  match _read : s.next with
  | (.error e, _) => ([], .error e)
  | (.ok none, _) => ([], .ok ())
  | (.ok (some bs), s') =>
    let (more, ending) := all s'
    (bs :: more, ending)
termination_by inputSize s.input
decreasing_by exact inputSize_next_lt _read

end FrameStream

end LedgerSearch.Wire
