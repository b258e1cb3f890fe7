/-
Buffered input and output of the user library: `BufferedReader` and
`BufferedWriter` of `rw_ulib/src/io/buffer.rs` over an arbitrary inner file.
-/
import Redwing.Machine

namespace Redwing.BufferedIo

open List

/-- What the inner reader does at one call: it fails, leaving the buffer with
whatever its memory holds, or delivers the next `len` bytes of its stream. -/
inductive InnerRead
  | fail (memory : List UInt8)
  | deliver (len : Nat)

/-- The fields of `BufferedReader`, with `rest` for what the inner reader has
not delivered yet; `capacity` is that of the allocated vector. -/
structure Reader where
  rest : List UInt8
  buffer : List UInt8
  readPos : Nat
  capacity : Nat
  readPos_le : readPos ≤ buffer.length

namespace Reader

def withCapacity (stream : List UInt8) (capacity : Nat) : Reader :=
  ⟨stream, [], 0, capacity, Nat.le_refl 0⟩

section

variable (r : Reader)

/-- The bytes that were buffered and not read yet. -/
def leftover : List UInt8 := r.buffer.drop r.readPos

/-- The bytes copied out and the reader behind them. -/
def readFromBuffer (want : Nat) : List UInt8 × Reader :=
  let bytesRead := min want (r.buffer.length - r.readPos)
  (r.leftover.take bytesRead,
    { r with readPos := r.readPos + bytesRead, readPos_le := by have := r.readPos_le; omega })

/-- `refill_buffer`; the result `none` is an error of the inner reader.  The
guard is the contract of the inner reader: no more than was asked for or is
left, and nothing only at the end of the stream. -/
def refillBuffer : InnerRead → Option (Option Nat × Reader)
  | .fail memory =>
    if memory.length = r.capacity then
      -- `set_len(capacity)` has happened and the `?` skips `set_len(len)`
      some (none, { r with buffer := memory, readPos := 0, readPos_le := Nat.zero_le _ })
    else none
  | .deliver len =>
    if len ≤ r.capacity ∧ len ≤ r.rest.length ∧ (len = 0 → r.rest = []) then
      some (some len, { r with
        rest := r.rest.drop len, buffer := r.rest.take len, readPos := 0
        readPos_le := Nat.zero_le _ })
    else none

/-- `read` with a buffer of `want` bytes: what the caller receives, `none` for
an error. -/
def read (want : Nat) (call : InnerRead) : Option (Option (List UInt8) × Reader) :=
  let (head, r) := r.readFromBuffer want
  if head.length = want then some (some head, r)
  else match r.refillBuffer call with
    | none => none
    | some (none, r) => some (none, r)
    | some (some 0, r) => some (some [], r)
    | some (some _, r) =>
      let (tail, r) := r.readFromBuffer (want - head.length)
      some (some (head ++ tail), r)

/-- The call is served from the buffer, or its refill succeeds and, at the end
of the stream, finds nothing that was copied out before. -/
def lossless (want : Nat) : InnerRead → Bool
  | .fail _ => want ≤ r.leftover.length
  | .deliver len => want ≤ r.leftover.length || len != 0 || r.leftover.isEmpty

lemma readFromBuffer_fst (want : Nat) : (r.readFromBuffer want).1 = r.leftover.take want := by
  simp [readFromBuffer, leftover, take_eq_take_iff]

lemma readFromBuffer_leftover (want : Nat) :
    (r.readFromBuffer want).2.leftover = r.leftover.drop want := by
  have hlen : r.leftover.length = r.buffer.length - r.readPos := length_drop
  have hdrop : (r.readFromBuffer want).2.leftover =
      r.leftover.drop (min want (r.buffer.length - r.readPos)) := drop_drop.symm
  rw [hdrop]
  by_cases hwant : want ≤ r.buffer.length - r.readPos
  · rw [Nat.min_eq_left hwant]
  · rw [Nat.min_eq_right (by omega), drop_eq_nil_of_le (by omega), drop_eq_nil_of_le (by omega)]

/-- What the caller can still get without an error of the inner reader. -/
def pending : List UInt8 := r.leftover ++ r.rest

end

variable {r r' : Reader} {call : InnerRead}

lemma pending_readFromBuffer (r : Reader) (want : Nat) :
    (r.readFromBuffer want).1 ++ (r.readFromBuffer want).2.pending = r.pending := by
  rw [readFromBuffer_fst, pending, readFromBuffer_leftover, ← append_assoc, take_append_drop]
  rfl

lemma deliver_of_refill (h : r.refillBuffer call = some (some len, r')) :
    call = .deliver len ∧ r'.pending = r.rest ∧ (len = 0 → r.rest = [] ∧ r'.leftover = []) ∧
      r'.leftover.length = len := by
  cases call with
  | fail memory => simp [refillBuffer] at h
  | deliver n =>
    simp only [refillBuffer, Option.ite_none_right_eq_some, Option.some.injEq, Prod.mk.injEq] at h
    obtain ⟨⟨_, hlen, hzero⟩, rfl, rfl⟩ := h
    refine ⟨rfl, take_append_drop n r.rest, fun hn => ⟨hzero hn, by simp [leftover, hn]⟩, ?_⟩
    simp [leftover, hlen]

/-- A lossless call moves bytes from what is pending to the caller; it is
without bytes only if nothing is pending. -/
lemma read_pending {bytes : Option (List UInt8)} (hok : r.lossless want call)
    (h : r.read want call = some (bytes, r')) :
    ∃ out, bytes = some out ∧ out ++ r'.pending = r.pending ∧
      (out = [] → 0 < want → r.pending = []) := by
  have hfirst := pending_readFromBuffer r want
  have hhead := readFromBuffer_fst r want
  have hleft := readFromBuffer_leftover r want
  revert h
  rw [read]
  generalize r.readFromBuffer want = copied at hfirst hhead hleft ⊢
  obtain ⟨head, mid⟩ := copied
  subst hhead
  simp only [length_take]
  split
  · rintro ⟨⟩
    refine ⟨_, rfl, hfirst, fun hnil hwant => ?_⟩
    have := congrArg length hnil
    simp only [length_take, length_nil] at this
    omega
  · next hshort =>
    have hall : r.leftover.length < want := by omega
    have hmid : mid.leftover = [] := hleft.trans (drop_eq_nil_of_le (by omega))
    have hrest : r.leftover ++ mid.rest = r.pending := by
      rw [← hfirst, pending, hmid, take_of_length_le (by omega), nil_append]
    split
    · rintro ⟨⟩
    · next hrefill =>
      -- an error is lossless only for a call that the buffer serves
      cases call with
      | fail memory => simp [lossless, Nat.not_le.mpr hall] at hok
      | deliver n => simp [refillBuffer] at hrefill
    · next hrefill =>
      rintro ⟨⟩
      obtain ⟨rfl, hpend, hzero, _⟩ := deliver_of_refill hrefill
      have hempty : r.leftover = [] := by simpa [lossless, Nat.not_le.mpr hall] using hok
      rw [hempty, (hzero rfl).1] at hrest
      exact ⟨[], rfl, by rw [nil_append, hpend, ← hrest, (hzero rfl).1, append_nil],
        fun _ _ => hrest.symm⟩
    · next n after hn hrefill =>
      rintro ⟨⟩
      obtain ⟨rfl, hpend, _, hlen⟩ := deliver_of_refill hrefill
      have hsecond := pending_readFromBuffer after (want - min want r.leftover.length)
      refine ⟨_, rfl, ?_, fun hnil _ => ?_⟩
      · rw [append_assoc, hsecond, hpend, take_of_length_le (by omega), hrest]
      · rw [readFromBuffer_fst] at hnil
        have := congrArg length hnil
        simp only [length_append, length_take, length_nil] at this
        exact absurd (show n = 0 by omega) hn

end Reader

/-- A reader, its whole stream and what the caller received from it. -/
structure Reading where
  stream : List UInt8
  reader : Reader
  received : List UInt8

/-- One action is one call of `read` with the size of the caller's buffer. -/
def readingMachine : Machine Reading (Nat × InnerRead) where
  start s := ∃ stream capacity, s = ⟨stream, .withCapacity stream capacity, []⟩
  step s a := (s.reader.read a.1 a.2).map fun (bytes, r) =>
    { s with reader := r, received := s.received ++ bytes.getD [] }

/-- As long as no call fails and none meets the end of the stream with bytes
already copied out, the caller receives the stream. -/
theorem read_transparent (s : Reading)
    (hs : readingMachine.ReachableUnder (fun s a => s.reader.lossless a.1 a.2) s) :
    s.received ++ s.reader.pending = s.stream ∧
      ∀ want call r, s.reader.lossless want call → 0 < want →
        s.reader.read want call = some (some [], r) → s.received = s.stream := by
  have hinv : s.received ++ s.reader.pending = s.stream := by
    apply hs.invariant (P := fun s => s.received ++ s.reader.pending = s.stream)
    · rintro s ⟨stream, capacity, rfl⟩
      rfl
    · intro s a t ih hok hstep
      obtain ⟨⟨bytes, r⟩, hread, rfl⟩ := Option.map_eq_some_iff.mp hstep
      obtain ⟨out, rfl, hout, _⟩ := Reader.read_pending hok hread
      change s.received ++ out ++ r.pending = s.stream
      rw [append_assoc, hout, ih]
  refine ⟨hinv, fun want call r hok hwant hread => ?_⟩
  obtain ⟨out, hbytes, _, hnil⟩ := Reader.read_pending hok hread
  rw [← hinv, hnil (Option.some.inj hbytes).symm hwant, append_nil]

/-- Three bytes in two short reads, then the end of the stream. -/
theorem read_transparent_short_reads :
    ∃ s, readingMachine.ReachableUnder (fun s a => s.reader.lossless a.1 a.2) s ∧
      s.received = [1, 2, 3] ∧ s.received = s.stream := by
  have hrun : ((readingMachine.runUnder (fun s a => s.reader.lossless a.1 a.2)
      ⟨[1, 2, 3], .withCapacity [1, 2, 3] 4, []⟩ [(1, .deliver 2), (2, .deliver 1)]).map
      fun s => (s.received, s.reader.pending)) = some ([1, 2, 3], []) := by
    decide
  obtain ⟨s, hs, heq⟩ := Option.map_eq_some_iff.mp hrun
  obtain ⟨hreceived, hpend⟩ := Prod.mk.inj heq
  have hreach := Machine.ReachableUnder.runUnder
    (.start (M := readingMachine) ⟨[1, 2, 3], 4, rfl⟩) hs
  refine ⟨s, hreach, hreceived, ?_⟩
  rw [← (read_transparent s hreach).1, hpend, append_nil]

/-- A call copies the last byte out, meets the end of the stream and returns
`Ok(0)`. -/
theorem read_loses_last_byte : ∃ r r',
    (Reader.withCapacity [1, 2, 3] 4096).read 2 (.deliver 3) = some (some [1, 2], r) ∧
      r.read 2 (.deliver 0) = some (some [], r') ∧ r'.pending = [] :=
  ⟨_, _, rfl, rfl, rfl⟩

/-! ### The writer -/

/-- The fields of `BufferedWriter`, with the bytes the inner writer has taken
and the number of its calls. -/
structure Writer where
  delivered : List UInt8
  calls : Nat
  buffer : List UInt8
  capacity : Nat
  buffer_le : buffer.length ≤ capacity

namespace Writer

def withCapacity (capacity : Nat) : Writer := ⟨[], 0, [], capacity, Nat.zero_le _⟩

/-- How many bytes went into the buffer. -/
def writeToBuffer (w : Writer) (buf : List UInt8) : Nat × Writer :=
  let bytesWrite := min buf.length (w.capacity - w.buffer.length)
  (bytesWrite, { w with
    buffer := w.buffer ++ buf.take bytesWrite
    buffer_le := by have := w.buffer_le; simp; omega })

variable (accept : Nat → Nat)

/-- The part of the buffer that the inner writer accepts at its next call: any
part, but not an empty one. -/
def accepted (w : Writer) : Nat := min w.buffer.length (max 1 (accept w.calls))

/-- One call of the inner writer, with the whole buffer. -/
def flushBuffer (w : Writer) : Nat × Writer :=
  if w.buffer.isEmpty then (0, w)
  else
    let len := w.accepted accept
    (len, { w with
      delivered := w.delivered ++ w.buffer.take len, calls := w.calls + 1
      buffer := w.buffer.drop len
      buffer_le := by have := w.buffer_le; simp; omega })

/-- The loop of `write`; its fuel bounds the number of rounds. -/
def writeLoop : Nat → Writer → List UInt8 → Option (Nat × Writer)
  | 0, _, _ => none
  | fuel + 1, w, buf =>
    let (bytesWrite, w) := w.writeToBuffer buf
    if bytesWrite = buf.length then some (bytesWrite, w)
    else
      let (flushed, w) := w.flushBuffer accept
      if flushed = 0 then some (bytesWrite, w)
      else (writeLoop fuel w (buf.drop bytesWrite)).map fun (len, w) => (bytesWrite + len, w)

def write (w : Writer) (buf : List UInt8) : Option (Nat × Writer) :=
  w.writeLoop accept (buf.length + 2) buf

/-- `flush`, for an inner writer whose own flush succeeds. -/
def flush (w : Writer) : Writer := (w.flushBuffer accept).2

/-- All bytes taken from callers, delivered or not. -/
def taken (w : Writer) : List UInt8 := w.delivered ++ w.buffer

lemma taken_flushBuffer (w : Writer) : (w.flushBuffer accept).2.taken = w.taken := by
  rw [flushBuffer]
  split
  · rfl
  · simp [taken, append_assoc]

lemma taken_writeToBuffer (w : Writer) (buf : List UInt8) :
    (w.writeToBuffer buf).2.taken = w.taken ++ buf.take (w.writeToBuffer buf).1 := by
  simp [taken, writeToBuffer, append_assoc]

variable {accept}

lemma room_of_flushed {w : Writer} (h : (w.flushBuffer accept).1 ≠ 0) :
    (w.flushBuffer accept).2.buffer.length < (w.flushBuffer accept).2.capacity := by
  have hle := w.buffer_le
  rw [flushBuffer] at h ⊢
  split at h
  · exact absurd rfl h
  · next hne =>
    have hpos := length_pos_iff.mpr (mt isEmpty_iff.mpr hne)
    simp only [hne, Bool.false_eq_true, ↓reduceIte, accepted, length_drop]
    omega

/-- Each round but the first finds room, so the loop ends. -/
lemma writeLoop_spec {fuel : Nat} {w : Writer} {buf : List UInt8}
    (hfuel : buf.length + (if w.buffer.length < w.capacity then 0 else 1) < fuel) :
    ∃ len w', w.writeLoop accept fuel buf = some (len, w') ∧
      w'.taken = w.taken ++ buf.take len := by
  induction fuel generalizing w buf with
  | zero => omega
  | succ fuel ih =>
    have hput := taken_writeToBuffer w buf
    simp only [writeLoop]
    split
    · exact ⟨_, _, rfl, hput⟩
    · next hpart =>
      have hflush := taken_flushBuffer accept (w.writeToBuffer buf).2
      split
      · exact ⟨_, _, rfl, hflush.trans hput⟩
      · next hflushed =>
        have hroom := room_of_flushed hflushed
        have hshort : (w.writeToBuffer buf).1 = min buf.length (w.capacity - w.buffer.length) := rfl
        obtain ⟨len, w', hloop, htaken⟩ := @ih ((w.writeToBuffer buf).2.flushBuffer accept).2
          (buf.drop (w.writeToBuffer buf).1) (by
            rw [if_pos hroom, length_drop]
            split at hfuel <;> omega)
        refine ⟨_, w', by rw [hloop]; rfl, ?_⟩
        rw [htaken, hflush, hput, append_assoc, ← take_add]

lemma write_spec (w : Writer) (buf : List UInt8) : ∃ len w', w.write accept buf = some (len, w') ∧
    w'.taken = w.taken ++ buf.take len :=
  writeLoop_spec (by split <;> omega)

lemma flush_buffer_iff (w : Writer) :
    (w.flush accept).buffer = [] ↔ w.accepted accept = w.buffer.length := by
  rw [flush, flushBuffer]
  split
  · next h => simp [isEmpty_iff.mp h, accepted]
  · simp only [drop_eq_nil_iff, accepted]
    omega

end Writer

inductive WriteCall
  | write (buf : List UInt8)
  | flush

/-- A writer and the bytes that `write` has acknowledged. -/
structure Writing where
  writer : Writer
  acknowledged : List UInt8

/-- Calls on one writer over the inner writer given by `accept`. -/
def writingMachine (accept : Nat → Nat) : Machine Writing WriteCall where
  start s := ∃ capacity, s = ⟨.withCapacity capacity, []⟩
  step s
    | .write buf => (s.writer.write accept buf).map fun (len, w) =>
        ⟨w, s.acknowledged ++ buf.take len⟩
    | .flush => some { s with writer := s.writer.flush accept }

/-- Every sequence of calls returns and keeps the acknowledged bytes in order;
a flush leaves nothing buffered exactly if the inner writer accepts the whole
buffer at once. -/
theorem write_transparent (accept : Nat → Nat) (capacity : Nat) (calls : List WriteCall) :
    ∃ s, (writingMachine accept).run ⟨.withCapacity capacity, []⟩ calls = some s ∧
      s.writer.delivered ++ s.writer.buffer = s.acknowledged ∧
      ((s.writer.flush accept).buffer = [] ↔
        s.writer.accepted accept = s.writer.buffer.length) := by
  suffices hrun : ∀ s : Writing, s.writer.taken = s.acknowledged →
      ∃ t, (writingMachine accept).run s calls = some t ∧ t.writer.taken = t.acknowledged by
    obtain ⟨s, hs, htaken⟩ := hrun ⟨.withCapacity capacity, []⟩ rfl
    exact ⟨s, hs, htaken, s.writer.flush_buffer_iff⟩
  induction calls with
  | nil => exact fun s hs => ⟨s, rfl, hs⟩
  | cons call rest ih =>
    intro s hs
    cases call with
    | write buf =>
      obtain ⟨len, w, hwrite, htaken⟩ := @Writer.write_spec accept s.writer buf
      obtain ⟨t, ht, hacked⟩ := ih ⟨w, s.acknowledged ++ buf.take len⟩ (by rw [htaken, hs])
      exact ⟨t, by simp [Machine.run, writingMachine, hwrite, ← ht], hacked⟩
    | flush =>
      exact ih { s with writer := s.writer.flush accept }
        ((Writer.taken_flushBuffer accept s.writer).trans hs)

/-- The inner writer takes one byte of two: `flush` returns with the other one
still buffered. -/
theorem flush_leaves_byte :
    ((writingMachine fun _ => 1).run ⟨.withCapacity 4096, []⟩ [.write [1, 2], .flush]).map
      (fun s => (s.writer.delivered, s.writer.buffer)) = some ([1], [2]) := by
  decide +kernel

end Redwing.BufferedIo
