import ElectrumPrivateRelay.Configuration.Config
import ElectrumPrivateRelay.Proxy.Frames
import Mathlib.Data.List.Basic

/-! Frames of a stream that arrives in chunks.

One buffered reader serves all calls. A call looks at what is buffered, up to
the limit, and asks for the next chunk only when the buffer is empty.
-/

set_option autoImplicit false

namespace ElectrumPrivateRelay.Proxy
open ElectrumPrivateRelay.Configuration

/-- What one read of the socket yields; a read of nothing ends the stream. -/
structure Chunk where
  bytes : List UInt8
  nonempty : bytes ≠ []

structure BufReader where
  buffer : List UInt8
  chunks : List Chunk

def BufReader.bytes (reader : BufReader) : List UInt8 :=
  reader.buffer ++ (reader.chunks.map Chunk.bytes).flatten

/-- `fill_buf`: an empty buffer is filled with the next chunk. -/
def BufReader.fillBuf (reader : BufReader) : BufReader :=
  match reader.buffer, reader.chunks with
  | [], chunk :: chunks => ⟨chunk.bytes, chunks⟩
  | _, _ => reader

def BufReader.consume (reader : BufReader) (amount : Nat) : BufReader :=
  { reader with buffer := reader.buffer.drop amount }

/-- `take(limit).read_until(delimiter)`: the available bytes are searched for the
delimiter, and collected whole when it is not among them. -/
def BufReader.readUntil (delimiter : UInt8) (limit : Nat) (reader : BufReader) : List UInt8 × BufReader :=
  if limit = 0 then ([], reader)
  else
    let filled := reader.fillBuf
    let available := filled.buffer.take limit
    if delimiter ∈ available then
      let used := available.idxOf delimiter + 1
      (available.take used, filled.consume used)
    else if available = [] then ([], filled)
    else
      let (taken, left) := (filled.consume available.length).readUntil delimiter (limit - available.length)
      (available ++ taken, left)
termination_by limit
decreasing_by
  exact Nat.sub_lt (Nat.pos_of_ne_zero ‹_›) (List.length_pos_iff.mpr ‹_›)

/-- The call returns a frame, the end of the stream or an error, and leaves the
reader where it stopped. The limit is computed in `usize`. -/
def BufReader.readFrame (maxFrameBytes : Nat) (reader : BufReader) :
    Except IoErrorKind (Option (List UInt8)) × BufReader :=
  let (frame, rest) := reader.readUntil newline ((maxFrameBytes + 1) % UInt64.size)
  if frame.length = 0 then (.ok none, rest)
  else if maxFrameBytes < frame.length || frame.getLast? ≠ some newline then (.error .invalidData, rest)
  else (.ok (some frame), rest)

theorem BufReader.bytes_fillBuf (reader : BufReader) : reader.fillBuf.bytes = reader.bytes := by
  unfold fillBuf
  split
  · next chunk chunks empty pending => simp [bytes, empty, pending]
  · rfl

theorem BufReader.fillBuf_empty {reader : BufReader} (empty : reader.fillBuf.buffer = []) : reader.bytes = [] := by
  unfold fillBuf at empty
  split at empty
  · next chunk chunks _ _ => exact absurd empty chunk.nonempty
  · next pending =>
    cases chunks : reader.chunks with
    | nil => simp [bytes, empty, chunks]
    | cons chunk later => exact absurd chunks (pending chunk later empty)

theorem BufReader.bytes_consume {reader : BufReader} {amount : Nat} (within : amount ≤ reader.buffer.length) :
    (reader.consume amount).bytes = reader.bytes.drop amount := by
  rw [bytes, bytes, consume, List.drop_append_of_le_length within]

theorem readUntil_append_clear {delimiter : UInt8} {limit : Nat} {front : List UInt8} (rest : List UInt8)
    (clear : delimiter ∉ front) (room : front.length ≤ limit) :
    Proxy.readUntil delimiter limit (front ++ rest) =
      (front ++ (Proxy.readUntil delimiter (limit - front.length) rest).1,
        (Proxy.readUntil delimiter (limit - front.length) rest).2) := by
  induction front generalizing limit with
  | nil => simp
  | cons byte front ih =>
    simp only [List.mem_cons, not_or] at clear
    simp only [List.length_cons] at room
    have positive : limit ≠ 0 := by omega
    have shift : limit - (front.length + 1) = limit - 1 - front.length := by omega
    have later := @ih (limit - 1) clear.2 (by omega)
    simp only [List.cons_append, readUntil, positive, if_false, Ne.symm clear.1, List.length_cons, shift, later]

theorem readUntil_length (delimiter : UInt8) (limit : Nat) (bytes : List UInt8) :
    (readUntil delimiter limit bytes).1.length ≤ limit := by
  fun_induction readUntil delimiter limit bytes with
  | case1 => exact Nat.zero_le _
  | case2 => exact Nat.zero_le _
  | case3 limit rest positive => exact Nat.pos_of_ne_zero positive
  | case4 limit byte rest positive other taken left read ih =>
    rw [read] at ih
    simp only [List.length_cons] at ih ⊢
    omega

theorem readUntil_zero (delimiter : UInt8) (bytes : List UInt8) : readUntil delimiter 0 bytes = ([], bytes) := by
  cases bytes with
  | nil => rfl
  | cons byte rest => rfl

theorem readUntil_long {delimiter : UInt8} {limit : Nat} {line : List UInt8} (rest : List UInt8)
    (clear : delimiter ∉ line) (long : limit ≤ line.length) :
    readUntil delimiter limit (line ++ rest) = (line.take limit, line.drop limit ++ rest) := by
  have size : (line.take limit).length = limit := List.length_take_of_le long
  have front : delimiter ∉ line.take limit := fun member => clear (List.mem_of_mem_take member)
  have split : line ++ rest = line.take limit ++ (line.drop limit ++ rest) := by
    rw [← List.append_assoc, List.take_append_drop]
  rw [split, readUntil_append_clear _ front (Nat.le_of_eq size), size, Nat.sub_self, readUntil_zero,
    List.append_nil]

theorem BufReader.bytes_available (reader : BufReader) (limit : Nat) :
    reader.bytes = reader.fillBuf.buffer.take limit ++
      (reader.fillBuf.consume (reader.fillBuf.buffer.take limit).length).bytes := by
  have whole : reader.fillBuf.buffer =
      reader.fillBuf.buffer.take limit ++ reader.fillBuf.buffer.drop (reader.fillBuf.buffer.take limit).length := by
    rw [List.length_take]
    rcases Nat.le_total limit reader.fillBuf.buffer.length with short | long
    · rw [Nat.min_eq_left short, List.take_append_drop]
    · rw [Nat.min_eq_right long, List.take_of_length_le long, List.drop_length, List.append_nil]
  rw [← bytes_fillBuf, bytes, bytes, consume, ← List.append_assoc, ← whole]

/-- The loop over the chunks collects and leaves what one pass over all the bytes does. -/
theorem BufReader.readUntil_bytes (delimiter : UInt8) (limit : Nat) (reader : BufReader) :
    ((reader.readUntil delimiter limit).1, (reader.readUntil delimiter limit).2.bytes) =
      Proxy.readUntil delimiter limit reader.bytes := by
  fun_induction BufReader.readUntil delimiter limit reader with
  | case1 reader => rw [readUntil_zero]
  | case2 limit reader positive filled available found used =>
    obtain ⟨line, after, split, clear⟩ := List.eq_append_cons_of_mem found
    have before : reader.bytes = available ++ (filled.consume available.length).bytes :=
      reader.bytes_available limit
    have size : available.length ≤ limit := List.length_take_le limit filled.buffer
    have inside : available.length ≤ filled.buffer.length := List.length_take_le' limit filled.buffer
    have length : available.length = line.length + (after.length + 1) := by
      rw [split, List.length_append, List.length_cons]
    have index : used = line.length + 1 := by
      change available.idxOf delimiter + 1 = line.length + 1
      rw [split, List.idxOf_append_of_notMem clear, List.idxOf_cons_self]
    generalize (filled.consume available.length).bytes = later at before
    have around : reader.bytes = line ++ delimiter :: (after ++ later) := by
      rw [before, split, List.append_assoc, List.cons_append]
    have left : (filled.consume used).bytes = after ++ later := by
      have front : reader.bytes = (line ++ [delimiter]) ++ (after ++ later) := by
        rw [around, List.append_assoc, List.singleton_append]
      rw [bytes_consume (by omega), bytes_fillBuf, front, List.drop_left' (by simp [index])]
    have taken : available.take used = line ++ [delimiter] := by
      rw [split, index, List.take_length_add_append]
      rfl
    rw [taken, left, around]
    exact (readUntil_line _ clear (by omega)).symm
  | case3 limit reader positive filled available absent empty =>
    have none : filled.buffer = [] := by
      rcases List.take_eq_nil_iff.mp empty with zero | none
      · exact absurd zero positive
      · exact none
    rw [bytes_fillBuf, fillBuf_empty none]
    rfl
  | case4 limit reader positive filled available absent some taken left read ih =>
    have size : available.length ≤ limit := List.length_take_le limit filled.buffer
    rw [read] at ih
    rw [reader.bytes_available limit, readUntil_append_clear _ absent size, ← ih]

theorem BufReader.readFrame_bytes (maxFrameBytes : Nat) (reader : BufReader) :
    Proxy.readFrame maxFrameBytes ⟨reader.bytes, .closed⟩ =
      match reader.readFrame maxFrameBytes with
      | (.ok (some frame), rest) => .frame frame ⟨rest.bytes, .closed⟩
      | (.ok none, _) => .endOfStream
      | (.error kind, _) => .error kind := by
  have flat := reader.readUntil_bytes newline ((maxFrameBytes + 1) % UInt64.size)
  simp only [Proxy.readFrame, BufReader.readFrame, ← flat]
  split
  · rfl
  · split
    · rfl
    · rfl

section
variable {maxFrameBytes : Nat} (room : maxFrameBytes + 1 < UInt64.size)
include room

theorem BufReader.readFrame_eq (reader : BufReader) :
    ((reader.readFrame maxFrameBytes).1, (reader.readFrame maxFrameBytes).2.bytes) =
      let (frame, rest) := Proxy.readUntil newline (maxFrameBytes + 1) reader.bytes
      (if frame.length = 0 then .ok none
        else if maxFrameBytes < frame.length || frame.getLast? ≠ some newline then .error .invalidData
        else .ok (some frame), rest) := by
  have flat := reader.readUntil_bytes newline (maxFrameBytes + 1)
  simp only [BufReader.readFrame, Nat.mod_eq_of_lt room, ← flat]
  split
  · rfl
  · split
    · rfl
    · rfl

/-- No call takes more than one byte above the limit, and a frame is all that it took. -/
theorem BufReader.readFrame_consumed (reader : BufReader) :
    ∃ consumed, reader.bytes = consumed ++ (reader.readFrame maxFrameBytes).2.bytes ∧
      consumed.length ≤ maxFrameBytes + 1 ∧
      ∀ frame, (reader.readFrame maxFrameBytes).1 = .ok (some frame) → consumed = frame := by
  have call := reader.readFrame_eq room
  have whole := readUntil_append newline (maxFrameBytes + 1) reader.bytes
  have short := readUntil_length newline (maxFrameBytes + 1) reader.bytes
  simp only [Prod.mk.injEq] at call
  refine ⟨_, ?_, short, ?_⟩
  · rw [call.2, whole]
  · intro frame found
    rw [call.1] at found
    split at found
    · cases found
    · split at found
      · cases found
      · cases found
        rfl

theorem BufReader.readFrame_end {reader : BufReader} (empty : reader.bytes = []) :
    (reader.readFrame maxFrameBytes).1 = .ok none := by
  have call := reader.readFrame_eq room
  rw [empty] at call
  exact congrArg Prod.fst call

theorem BufReader.readFrame_line {reader : BufReader} {line rest : List UInt8}
    (split : reader.bytes = line ++ newline :: rest) (clear : newline ∉ line)
    (fits : line.length + 1 ≤ maxFrameBytes) :
    (reader.readFrame maxFrameBytes).1 = .ok (some (line ++ [newline])) ∧
      (reader.readFrame maxFrameBytes).2.bytes = rest := by
  have call := reader.readFrame_eq room
  have within : ¬ maxFrameBytes < line.length + 1 := by omega
  rw [split, readUntil_line rest clear (by omega)] at call
  simpa [within] using call

theorem BufReader.readFrame_long {reader : BufReader} {line rest : List UInt8}
    (split : reader.bytes = line ++ newline :: rest) (clear : newline ∉ line)
    (long : maxFrameBytes < line.length + 1) :
    (reader.readFrame maxFrameBytes).1 = .error .invalidData := by
  have call := congrArg Prod.fst (reader.readFrame_eq room)
  rcases Nat.lt_or_ge line.length (maxFrameBytes + 1) with met | beyond
  · rw [split, readUntil_line rest clear met] at call
    simpa [long] using call
  · rw [split, readUntil_long _ clear beyond] at call
    simpa [Nat.min_eq_left beyond] using call

theorem BufReader.readFrame_unterminated {reader : BufReader} (some : reader.bytes ≠ [])
    (clear : newline ∉ reader.bytes) : (reader.readFrame maxFrameBytes).1 = .error .invalidData := by
  have call := congrArg Prod.fst (reader.readFrame_eq room)
  have taken : (Proxy.readUntil newline (maxFrameBytes + 1) reader.bytes).1 =
      reader.bytes.take (maxFrameBytes + 1) := by
    rcases Nat.le_total reader.bytes.length (maxFrameBytes + 1) with short | long
    · have whole := readUntil_append_clear [] clear short
      rw [List.append_nil] at whole
      rw [whole, List.take_of_length_le short]
      exact List.append_nil _
    · have front := readUntil_long [] clear long
      rw [List.append_nil] at front
      rw [front]
  have unended : (reader.bytes.take (maxFrameBytes + 1)).getLast? ≠ .some newline := by
    intro last
    exact clear (List.mem_of_mem_take (List.mem_of_getLast? last))
  simpa [taken, some, unended] using call

end

def lines : List UInt8 → List (List UInt8) × List UInt8
  | [] => ([], [])
  | byte :: rest =>
    if byte = newline then ([byte] :: (lines rest).1, (lines rest).2)
    else match (lines rest).1 with
      | [] => ([], byte :: (lines rest).2)
      | line :: later => ((byte :: line) :: later, (lines rest).2)

theorem lines_flatten (bytes : List UInt8) : (lines bytes).1.flatten ++ (lines bytes).2 = bytes := by
  induction bytes with
  | nil => rfl
  | cons byte rest ih =>
    unfold lines
    split
    · simp [ih]
    · split
      · next none =>
        rw [none] at ih
        simpa using ih
      · next line later some =>
        rw [some] at ih
        simpa using ih

theorem lines_clear {bytes : List UInt8} (clear : newline ∉ bytes) : lines bytes = ([], bytes) := by
  induction bytes with
  | nil => rfl
  | cons byte rest ih =>
    simp only [List.mem_cons, not_or] at clear
    simp [lines, ih clear.2, Ne.symm clear.1]

theorem lines_line {line : List UInt8} (rest : List UInt8) (clear : newline ∉ line) :
    lines (line ++ newline :: rest) = ((line ++ [newline]) :: (lines rest).1, (lines rest).2) := by
  induction line with
  | nil => simp [lines]
  | cons byte line ih =>
    simp only [List.mem_cons, not_or] at clear
    simp [lines, ih clear.2, Ne.symm clear.1]

theorem BufReader.readFrame_shrinks {maxFrameBytes : Nat} {reader rest : BufReader} {frame : List UInt8}
    (call : reader.readFrame maxFrameBytes = (.ok (some frame), rest)) : rest.bytes.length < reader.bytes.length := by
  have flat := readFrame_bytes maxFrameBytes reader
  rw [call] at flat
  obtain ⟨split, -, -, last⟩ := readFrame_eq_frame flat
  simp only at split
  rw [split, List.length_append]
  cases frame with
  | nil => cases last
  | cons byte frame =>
    rw [List.length_cons]
    omega

/-- The calls of one connection: frames until the first call that returns none. -/
def BufReader.readFrames (maxFrameBytes : Nat) (reader : BufReader) :
    List (List UInt8) × Except IoErrorKind Unit :=
  match _ : reader.readFrame maxFrameBytes with
  | (.ok (some frame), rest) =>
    let (frames, ending) := rest.readFrames maxFrameBytes
    (frame :: frames, ending)
  | (.ok none, _) => ([], .ok ())
  | (.error kind, _) => ([], .error kind)
termination_by reader.bytes.length
decreasing_by exact readFrame_shrinks ‹_›

def fittingLines (maxFrameBytes : Nat) (stream : List UInt8) : List (List UInt8) × Except IoErrorKind Unit :=
  let (complete, rest) := lines stream
  (complete.takeWhile fun line => line.length ≤ maxFrameBytes,
    if (complete.all fun line => line.length ≤ maxFrameBytes) && rest.isEmpty then .ok ()
    else .error .invalidData)

section
variable {maxFrameBytes : Nat}

theorem BufReader.readFrames_frame {reader : BufReader} {frame : List UInt8}
    (call : (reader.readFrame maxFrameBytes).1 = .ok (some frame)) :
    reader.readFrames maxFrameBytes =
      (frame :: ((reader.readFrame maxFrameBytes).2.readFrames maxFrameBytes).1,
        ((reader.readFrame maxFrameBytes).2.readFrames maxFrameBytes).2) := by
  rw [readFrames]
  split
  · next found rest same =>
    rw [same] at call
    cases call
    rw [same]
  · next same =>
    rw [same] at call
    cases call
  · next same =>
    rw [same] at call
    cases call

theorem BufReader.readFrames_end {reader : BufReader} (call : (reader.readFrame maxFrameBytes).1 = .ok none) :
    reader.readFrames maxFrameBytes = ([], .ok ()) := by
  rw [readFrames]
  split
  · next same =>
    rw [same] at call
    cases call
  · rfl
  · next same =>
    rw [same] at call
    cases call

theorem BufReader.readFrames_error {reader : BufReader} {kind : IoErrorKind}
    (call : (reader.readFrame maxFrameBytes).1 = .error kind) :
    reader.readFrames maxFrameBytes = ([], .error kind) := by
  rw [readFrames]
  split
  · next same =>
    rw [same] at call
    cases call
  · next same =>
    rw [same] at call
    cases call
  · next same =>
    rw [same] at call
    cases call
    rfl

theorem BufReader.readFrames_eq (room : maxFrameBytes + 1 < UInt64.size) (reader : BufReader) :
    reader.readFrames maxFrameBytes = fittingLines maxFrameBytes reader.bytes := by
  induction size : reader.bytes.length using Nat.strongRecOn generalizing reader with
  | ind length ih =>
    by_cases ended : newline ∈ reader.bytes
    · obtain ⟨line, rest, split, clear⟩ := List.eq_append_cons_of_mem ended
      by_cases fits : line.length + 1 ≤ maxFrameBytes
      · obtain ⟨frame, left⟩ := readFrame_line room split clear fits
        have shorter : (reader.readFrame maxFrameBytes).2.bytes.length < length := by
          rw [left, ← size, split, List.length_append, List.length_cons]
          omega
        rw [readFrames_frame frame, ih _ shorter _ rfl, left, split]
        simp [fittingLines, lines_line rest clear, fits]
      · have long : maxFrameBytes < line.length + 1 := by omega
        rw [readFrames_error (readFrame_long room split clear long), split]
        simp [fittingLines, lines_line rest clear, fits]
    · by_cases empty : reader.bytes = []
      · rw [readFrames_end (readFrame_end room empty), empty]
        rfl
      · rw [readFrames_error (readFrame_unterminated room empty ended), fittingLines, lines_clear ended]
        simp [empty]

end

/-- What one connection gets out of its reader. -/
structure SplitsExactly (maxFrameBytes : Nat) (reader : BufReader) : Prop where
  limit : (maxFrameBytes + 1) % UInt64.size = maxFrameBytes + 1
  frames : reader.readFrames maxFrameBytes = fittingLines maxFrameBytes reader.bytes
  chunking : ∀ other : BufReader, other.bytes = reader.bytes →
    other.readFrames maxFrameBytes = reader.readFrames maxFrameBytes
  concatenated : ∃ rest, reader.bytes = (reader.readFrames maxFrameBytes).1.flatten ++ rest

/-- What each call does, in whatever state of the reader. -/
structure CallsExactly (maxFrameBytes : Nat) (reader : BufReader) : Prop where
  consumed : ∃ taken, reader.bytes = taken ++ (reader.readFrame maxFrameBytes).2.bytes ∧
    taken.length ≤ maxFrameBytes + 1 ∧
    ∀ frame, (reader.readFrame maxFrameBytes).1 = .ok (some frame) → taken = frame
  longest : ∀ line rest, newline ∉ line → reader.bytes = line ++ newline :: rest →
    line.length + 1 = maxFrameBytes → (reader.readFrame maxFrameBytes).1 = .ok (some (line ++ [newline]))
  longer : ∀ line rest, newline ∉ line → reader.bytes = line ++ newline :: rest →
    line.length + 1 = maxFrameBytes + 1 → (reader.readFrame maxFrameBytes).1 = .error .invalidData
  unterminated : reader.bytes ≠ [] → newline ∉ reader.bytes →
    (reader.readFrame maxFrameBytes).1 = .error .invalidData
  ended : reader.bytes = [] → (reader.readFrame maxFrameBytes).1 = .ok none

theorem takeWhile_flatten (maxFrameBytes : Nat) (complete : List (List UInt8)) :
    ∃ rest, complete.flatten = (complete.takeWhile fun line => line.length ≤ maxFrameBytes).flatten ++ rest := by
  refine ⟨(complete.dropWhile fun line => line.length ≤ maxFrameBytes).flatten, ?_⟩
  rw [← List.flatten_append, List.takeWhile_append_dropWhile]

theorem readFrames_splits_exactly (cli : Cli) (config : Config) (accepted : Config.tryFrom cli = .ok config)
    (reader : BufReader) :
    SplitsExactly config.maxFrameBytes reader ∧
      ∀ current : BufReader, CallsExactly config.maxFrameBytes current := by
  have room : config.maxFrameBytes + 1 < UInt64.size := by
    have bound := (Config.tryFrom_withinBudget accepted).frame_max
    simp only [maxConfigurableFrameBytes] at bound
    have size : UInt64.size = 2 ^ 64 := rfl
    omega
  constructor
  · refine ⟨Nat.mod_eq_of_lt room, reader.readFrames_eq room, ?_, ?_⟩
    · intro other same
      rw [other.readFrames_eq room, reader.readFrames_eq room, same]
    · obtain ⟨rest, split⟩ := takeWhile_flatten config.maxFrameBytes (lines reader.bytes).1
      refine ⟨rest ++ (lines reader.bytes).2, ?_⟩
      have whole := lines_flatten reader.bytes
      rw [split, List.append_assoc] at whole
      rw [reader.readFrames_eq room]
      exact whole.symm
  · intro current
    refine ⟨current.readFrame_consumed room, ?_, ?_, BufReader.readFrame_unterminated room,
      BufReader.readFrame_end room⟩
    · intro line rest clear split size
      exact (BufReader.readFrame_line room split clear (by omega)).1
    · intro line rest clear split size
      exact BufReader.readFrame_long room split clear (by omega)

theorem readFrames_across_chunks :
    ∃ config, Config.tryFrom Cli.default = .ok config ∧
      BufReader.readFrames config.maxFrameBytes
          ⟨[], [⟨[97, 10, 98], by decide⟩, ⟨[99], by decide⟩, ⟨[10], by decide⟩]⟩ =
        ([[97, 10], [98, 99, 10]], .ok ()) := by
  refine ⟨_, rfl, ?_⟩
  exact (readFrames_splits_exactly Cli.default _ rfl
    ⟨[], [⟨[97, 10, 98], by decide⟩, ⟨[99], by decide⟩, ⟨[10], by decide⟩]⟩).1.frames

end ElectrumPrivateRelay.Proxy
