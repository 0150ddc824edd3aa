import Mathlib.Logic.Basic

/-! Newline-delimited frames of a byte stream. -/

set_option autoImplicit false

namespace ElectrumPrivateRelay.Proxy

inductive IoErrorKind where
  | invalidData
  | other
  deriving DecidableEq, Repr

inductive Ending where
  | closed
  | failed (kind : IoErrorKind)
  deriving DecidableEq, Repr

structure Input where
  bytes : List UInt8
  ending : Ending
  deriving DecidableEq, Repr

inductive FrameRead where
  | frame (bytes : List UInt8) (rest : Input)
  | endOfStream
  | error (kind : IoErrorKind)
  deriving DecidableEq, Repr

/-- `take(limit).read_until(delimiter)`: what it collects and what it leaves. -/
def readUntil (delimiter : UInt8) : Nat → List UInt8 → List UInt8 × List UInt8
  | _, [] => ([], [])
  | limit, byte :: rest =>
    if limit = 0 then ([], byte :: rest)
    else if byte = delimiter then ([byte], rest)
    else
      let (taken, left) := readUntil delimiter (limit - 1) rest
      (byte :: taken, left)

def newline : UInt8 := 0x0A

/-- The limit is computed in `usize`, so it wraps at the largest value. -/
def readFrame (maxFrameBytes : Nat) (input : Input) : FrameRead :=
  let limit := (maxFrameBytes + 1) % UInt64.size
  let (frame, rest) := readUntil newline limit input.bytes
  -- a short read without a delimiter has met the end of the stream
  match input.ending, decide (frame.length < limit) && frame.getLast? ≠ some newline with
  | .failed kind, true => .error kind
  | _, _ =>
    if frame.length = 0 then .endOfStream
    else if maxFrameBytes < frame.length || frame.getLast? ≠ some newline then .error .invalidData
    else .frame frame { input with bytes := rest }

theorem readUntil_append (delimiter : UInt8) (limit : Nat) (bytes : List UInt8) :
    (readUntil delimiter limit bytes).1 ++ (readUntil delimiter limit bytes).2 = bytes := by
  fun_induction readUntil delimiter limit bytes with
  | case1 => rfl
  | case2 => rfl
  | case3 => rfl
  | case4 limit byte rest positive other taken left read ih =>
    rw [read] at ih
    simp only [List.cons_append, ih]

theorem readUntil_line {delimiter : UInt8} {limit : Nat} {line : List UInt8} (rest : List UInt8)
    (clear : delimiter ∉ line) (room : line.length < limit) :
    readUntil delimiter limit (line ++ delimiter :: rest) = (line ++ [delimiter], rest) := by
  induction line generalizing limit with
  | nil =>
    have positive : limit ≠ 0 := by
      simp only [List.length_nil] at room
      omega
    simp [readUntil, positive]
  | cons byte line ih =>
    simp only [List.mem_cons, not_or] at clear
    simp only [List.length_cons] at room
    have positive : limit ≠ 0 := by omega
    have later : readUntil delimiter (limit - 1) (line ++ delimiter :: rest) = (line ++ [delimiter], rest) :=
      ih clear.2 (by omega)
    simp only [List.cons_append, readUntil, positive, if_false, Ne.symm clear.1, later]

theorem readUntil_clear (delimiter : UInt8) (limit : Nat) (bytes : List UInt8) :
    (∃ line, (readUntil delimiter limit bytes).1 = line ++ [delimiter] ∧ delimiter ∉ line) ∨
      delimiter ∉ (readUntil delimiter limit bytes).1 := by
  fun_induction readUntil delimiter limit bytes with
  | case1 => exact .inr List.not_mem_nil
  | case2 => exact .inr List.not_mem_nil
  | case3 => exact .inl ⟨[], rfl, List.not_mem_nil⟩
  | case4 limit byte rest positive other taken left read ih =>
    rw [read] at ih
    rcases ih with ⟨line, same, clear⟩ | clear
    · refine .inl ⟨byte :: line, congrArg (byte :: ·) same, ?_⟩
      simp [clear, Ne.symm other]
    · refine .inr ?_
      simp only [List.mem_cons, not_or]
      exact ⟨Ne.symm other, clear⟩

theorem readFrame_eq_frame {maxFrameBytes : Nat} {input rest : Input} {frame : List UInt8}
    (found : readFrame maxFrameBytes input = .frame frame rest) :
    input.bytes = frame ++ rest.bytes ∧ rest.ending = input.ending ∧
      frame.length ≤ maxFrameBytes ∧ frame.getLast? = some newline := by
  have split := readUntil_append newline ((maxFrameBytes + 1) % UInt64.size) input.bytes
  simp only [readFrame] at found
  -- Only the last arm yields a frame; before it come a failed stream, the end
  -- of the stream, and bytes that are too many or unterminated.
  split at found
  · cases found
  · split at found
    · cases found
    · split at found
      · cases found
      · next sized =>
        cases found
        simp only [Bool.or_eq_true, decide_eq_true_eq, not_or, Nat.not_lt, ne_eq, not_not] at sized
        exact ⟨split.symm, rfl, sized⟩

end ElectrumPrivateRelay.Proxy
