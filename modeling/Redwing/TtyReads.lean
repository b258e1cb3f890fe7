/-
Sessions at a terminal: any input interleaved with any reads.  The bytes read,
those still buffered and the lines still queued make up the lines of the
reference editor, and a read waits only if none of them is left.
-/
import Redwing.TtyInput

namespace Redwing.Tty

open List

/-! ### Lines are never empty -/

lemma Editor.apply_ne_nil {e : Editor} (h : ∀ line ∈ e.lines, line ≠ [])
    (command : Command) : ∀ line ∈ (e.apply command).lines, line ≠ [] := by
  have hfinish : ∀ ch, ∀ line ∈ (e.finish ch).lines, line ≠ [] := by
    intro ch line hline
    rcases mem_append.mp hline with hold | hnew
    · exact h line hold
    · rw [mem_singleton.mp hnew]
      simp
  cases command with
  | insert | backspace | home | toEnd | killLine => exact h
  | finish ch => exact hfinish ch
  | tab | left | right => simp only [Editor.apply]; split <;> exact h
  | endOfInput =>
    simp only [Editor.apply]
    split
    · exact hfinish 0
    · exact h

lemma Editor.applyAll_ne_nil {e : Editor} (h : ∀ line ∈ e.lines, line ≠ [])
    (commands : List Command) : ∀ line ∈ (e.applyAll commands).lines, line ≠ [] := by
  induction commands generalizing e with
  | nil => exact h
  | cons command rest ih => exact ih (Editor.apply_ne_nil h command)

lemma refLines_ne_nil : ∀ line ∈ refLines input, line ≠ [] :=
  Editor.applyAll_ne_nil (fun _ hline => absurd hline not_mem_nil) _

/-! ### Input -/

/-- What `receive_input` passes on of a buffer: everything that was not turned
into a signal. -/
def passedOn (found : Bool) (buf : List UInt8) : List UInt8 :=
  buf.filter fun byte => !TtyDevice.trySendSignal found byte

lemma Follows.receiveLoop {d : LineDiscipline} {input : List UInt8} {taken : List (List UInt8)}
    (h : Follows d input taken) (found : Bool) (newLine : Bool) (buf : List UInt8) :
    ∃ r d', TtyDevice.receiveLoop found d newLine buf = some (r, d') ∧
      Follows d' (input ++ passedOn found buf) taken := by
  induction buf generalizing d input newLine with
  | nil => exact ⟨newLine, d, rfl, by simpa [passedOn] using h⟩
  | cons byte rest ih =>
    by_cases hsignal : TtyDevice.trySendSignal found byte = true
    · obtain ⟨r, d', hloop, hfollows⟩ := ih h newLine
      refine ⟨r, d', ?_, ?_⟩
      · simpa only [TtyDevice.receiveLoop, hsignal, ↓reduceIte] using hloop
      · simpa [passedOn, hsignal] using hfollows
    obtain ⟨completed, d₁, hbyte, hfollows₁⟩ := h.inputByte byte
    obtain ⟨r, d', hloop, hfollows⟩ := ih hfollows₁ (newLine || completed)
    refine ⟨r, d', ?_, ?_⟩
    · simpa only [TtyDevice.receiveLoop, hsignal, Bool.false_eq_true, ↓reduceIte, hbyte] using hloop
    · simpa [passedOn, hsignal] using hfollows

/-! ### What is delivered -/

/-- A line as the reader sees it: bytes, or one end of file. -/
def delivered (line : List UInt8) : List (Option UInt8) :=
  if line = [0] then [none] else line.map some

lemma delivered_ne_nil {line : List UInt8} (hne : line ≠ []) : delivered line ≠ [] := by
  unfold delivered
  split
  · exact cons_ne_nil _ _
  · exact mt map_eq_nil_iff.mp hne

def obtained (bytes : List UInt8) : List (Option UInt8) :=
  if bytes = [] then [none] else bytes.map some

def ReadOutcome.reads : ReadOutcome → List (List UInt8)
  | .ok bytes => [bytes]
  | .notForeground | .wait => []

lemma takeBytes_obtained (s : TtyDevice) {len : Nat} (hlen : len ≠ 0) :
    (s.takeBytes len).1.reads.flatMap obtained ++ (s.takeBytes len).2.currentReadBuf.map some =
      s.currentReadBuf.map some := by
  unfold TtyDevice.takeBytes
  by_cases hbuf : s.currentReadBuf = []
  · simp [hbuf, ReadOutcome.reads]
  have hpos : s.currentReadBuf.take (min s.currentReadBuf.length len) ≠ [] := by simp [hbuf, hlen]
  simp only [hbuf, ↓reduceIte, ReadOutcome.reads, flatMap_cons,
    flatMap_nil, append_nil, obtained, hpos]
  rw [← map_append, take_append_drop]

lemma takeBytes_lineDiscipline (s : TtyDevice) (len : Nat) :
    (s.takeBytes len).2.lineDiscipline = s.lineDiscipline := by
  unfold TtyDevice.takeBytes
  split <;> rfl

/-- The reads so far and the rest of the buffer are the lines that were taken
from the queue. -/
structure Taken (s : TtyDevice) (input : List UInt8)
    (reads : List (List UInt8)) : Prop where
  out : ∃ taken, Follows s.lineDiscipline input taken ∧
    reads.flatMap obtained ++ s.currentReadBuf.map some = taken.flatMap delivered

lemma Taken.takeBytes {s : TtyDevice} {input : List UInt8} {reads : List (List UInt8)}
    (h : Taken s input reads) {len : Nat} (hlen : len ≠ 0) :
    Taken (s.takeBytes len).2 input (reads ++ (s.takeBytes len).1.reads) := by
  obtain ⟨taken, hfollows, htaken⟩ := h.out
  refine ⟨taken, by rw [takeBytes_lineDiscipline]; exact hfollows, ?_⟩
  rw [flatMap_append, append_assoc, takeBytes_obtained s hlen, htaken]

lemma Taken.devRead {s : TtyDevice} {input : List UInt8} {reads : List (List UInt8)}
    (h : Taken s input reads) (tid : Nat) {len : Nat} (hlen : len ≠ 0) :
    Taken (s.devRead tid len).2 input (reads ++ (s.devRead tid len).1.reads) := by
  unfold TtyDevice.devRead LineDiscipline.completedLine
  by_cases htid : tid ≠ s.currentTgid
  · rw [if_pos htid]
    simpa [ReadOutcome.reads] using h
  rw [if_neg htid]
  by_cases hbuf : s.currentReadBuf = []
  · rw [if_pos hbuf]
    cases hlines : s.lineDiscipline.completedLines with
    | nil => exact h.takeBytes hlen
    | cons line rest =>
      obtain ⟨taken, hfollows, htaken⟩ := h.out
      have htake := hfollows.take hlines
      simp only [hbuf, map_nil, append_nil] at htaken
      by_cases heof : line = [0]
      · simp only [heof, ↓reduceIte]
        rw [heof] at htake
        refine ⟨taken ++ [[0]], htake, ?_⟩
        simp [ReadOutcome.reads, htaken, obtained, delivered, hbuf]
      simp only [heof, ↓reduceIte, hbuf, nil_append]
      refine Taken.takeBytes ⟨taken ++ [line], htake, ?_⟩ hlen
      simp [htaken, delivered, heof]
  · rw [if_neg hbuf]
    exact h.takeBytes hlen

lemma Taken.wait_iff {s : TtyDevice} {input : List UInt8}
    {reads : List (List UInt8)} (h : Taken s input reads) (len : Nat) :
    (s.devRead s.currentTgid len).1 = .wait ↔
      s.currentReadBuf = [] ∧ s.lineDiscipline.completedLines = [] := by
  obtain ⟨taken, hfollows, -⟩ := h.out
  unfold TtyDevice.devRead LineDiscipline.completedLine
  rw [if_neg (not_not.mpr rfl)]
  by_cases hbuf : s.currentReadBuf = []
  · rw [if_pos hbuf]
    cases hlines : s.lineDiscipline.completedLines with
    | nil => simp [TtyDevice.takeBytes, hbuf]
    | cons line rest =>
      have hmem : line ∈ refLines input := by
        rw [hfollows.lines, hlines]
        simp
      have hne := refLines_ne_nil line hmem
      by_cases heof : line = [0]
      · simp [heof]
      · simp [heof, TtyDevice.takeBytes, hbuf, hne]
  · rw [if_neg hbuf]
    simp [TtyDevice.takeBytes, hbuf]

/-! ### Sessions -/

/-- The terminal with the bytes that were input and the results of the reads so
far. -/
structure Session where
  device : TtyDevice
  received : List UInt8
  reads : List (List UInt8)
deriving DecidableEq

inductive Act
  | receive (found : Bool) (buf : List UInt8)
  | read (tid len : Nat)
deriving DecidableEq

/-- A step of a session.  Buffers of reads are not empty; input has no result if
the code panics. -/
def Session.step (s : Session) : Act → Option Session
  | .receive found buf =>
    (s.device.receiveInput found buf).map fun r =>
      { s with device := r.2, received := s.received ++ passedOn found buf }
  | .read tid len =>
    if len = 0 then none
    else
      some { s with
        device := (s.device.devRead tid len).2
        reads := s.reads ++ (s.device.devRead tid len).1.reads }

def session : Machine Session Act where
  start s := ∃ tgid, s = ⟨.new tgid, [], []⟩
  step := Session.step

lemma session_taken {s : Session} (hs : session.Reachable s) :
    Taken s.device s.received s.reads := by
  apply hs.invariant
  · rintro _ ⟨tgid, rfl⟩
    exact ⟨[], follows_new, rfl⟩
  rintro s act t h - hstep
  cases act with
  | receive found buf =>
    obtain ⟨taken, hfollows, htaken⟩ := h.out
    obtain ⟨r, d', hloop, hfollows'⟩ := hfollows.receiveLoop found false buf
    simp only [session, Session.step, TtyDevice.receiveInput, hloop,
      Option.map_some, Option.some.injEq] at hstep
    exact hstep ▸ ⟨taken, hfollows', htaken⟩
  | read tid len =>
    by_cases hlen : len = 0
    · simp [session, Session.step, hlen] at hstep
    simp only [session, Session.step, hlen, ↓reduceIte, Option.some.injEq] at hstep
    exact hstep ▸ h.devRead tid hlen

/-- At every point of a session the cursor is inside the line, no input makes the
code panic, and what the reads returned, followed by what is still buffered and
queued, is the lines of the reference editor.  The foreground task has to wait
only when all of it was returned. -/
theorem reads_deliver_edited_lines (s : Session) (hs : session.Reachable s) :
    s.device.lineDiscipline.edit ≤ s.device.lineDiscipline.lineBuffer.length ∧
      (∀ found buf, (s.device.receiveInput found buf).isSome) ∧
      s.reads.flatMap obtained ++ s.device.currentReadBuf.map some ++
          s.device.lineDiscipline.completedLines.flatMap delivered =
        (refLines s.received).flatMap delivered ∧
      ∀ len, (s.device.devRead s.device.currentTgid len).1 = .wait ↔
        s.reads.flatMap obtained = (refLines s.received).flatMap delivered := by
  have htaken := session_taken hs
  obtain ⟨taken, hfollows, hreads⟩ := htaken.out
  have hall : s.reads.flatMap obtained ++ s.device.currentReadBuf.map some ++
      s.device.lineDiscipline.completedLines.flatMap delivered =
        (refLines s.received).flatMap delivered := by
    rw [hreads, hfollows.lines, flatMap_append]
  refine ⟨hfollows.edit_le, ?_, hall, ?_⟩
  · intro found buf
    obtain ⟨r, d', hloop, -⟩ := hfollows.receiveLoop found false buf
    simp [TtyDevice.receiveInput, hloop]
  intro len
  rw [htaken.wait_iff, ← hall, append_assoc, self_eq_append_right,
    append_eq_nil_iff, map_eq_nil_iff]
  apply and_congr_right
  intro _
  constructor
  · intro hnil
    rw [hnil]
    rfl
  intro hnil
  apply eq_nil_iff_forall_not_mem.mpr
  intro line hline
  have hmem : line ∈ refLines s.received := by
    rw [hfollows.lines]
    exact mem_append_right _ hline
  exact delivered_ne_nil (refLines_ne_nil _ hmem) (flatMap_eq_nil_iff.mp hnil line hline)

theorem reads_deliver_edited_lines_broken_escape : ∃ s, session.Reachable s ∧
      s.received = [97, 99, 27, 91, 68, 98, 27, 97, 10, 10, 4, 27] ∧
      s.reads = [[97], [98, 99], [10], []] ∧
      ∀ len, (s.device.devRead s.device.currentTgid len).1 = .wait ↔
        s.reads.flatMap obtained = (refLines s.received).flatMap delivered := by
  have hrun : ((session.run ⟨.new 1, [], []⟩
      [.receive true [97, 99, 27, 91, 68, 98, 27, 97, 3, 10], .read 1 1,
        .receive true [10, 4], .read 1 1, .read 2 9, .read 1 2, .read 1 5,
        .receive true [27], .read 1 3, .read 1 1]).map
        fun s => (s.received, s.reads)) =
      some ([97, 99, 27, 91, 68, 98, 27, 97, 10, 10, 4, 27], [[97], [98, 99], [10], []]) := by
    decide
  obtain ⟨s, hs, heq⟩ := Option.map_eq_some_iff.mp hrun
  obtain ⟨hreceived, hreads⟩ := Prod.mk.inj heq
  have hreach : session.Reachable s := .run (.start ⟨1, rfl⟩) hs
  exact ⟨s, hreach, hreceived, hreads, (reads_deliver_edited_lines s hreach).2.2.2⟩

end Redwing.Tty
