/-
`Stdin::read_line` of `rw_ulib/src/io/mod.rs` over the buffered reader, one round
of its loop a step.  It looks for the end of a line only at the end of what one
read returns.
-/
import Redwing.BufferedIo

namespace Redwing.StdinLines

open List BufferedIo

def newline : UInt8 := 10

/-- `str::from_utf8` accepts the bytes. -/
def validUtf8 (bytes : List UInt8) : Bool := ByteArray.validateUTF8 ⟨bytes.toArray⟩

/-- The bytes cut after each newline, with the remainder as the last line. -/
def cutLines : List UInt8 → List (List UInt8)
  | [] => []
  | byte :: bytes =>
    if byte = newline then [byte] :: cutLines bytes
    else match cutLines bytes with
      | [] => [[byte]]
      | line :: lines => (byte :: line) :: lines

lemma cutLines_newline {line : List UInt8} (h : newline ∉ line) (bytes : List UInt8) :
    cutLines (line ++ newline :: bytes) = (line ++ [newline]) :: cutLines bytes := by
  induction line with
  | nil => simp [cutLines]
  | cons byte line ih =>
    obtain ⟨hbyte, hline⟩ := not_or.mp (mt mem_cons.mpr h)
    rw [cons_append, cutLines, if_neg (Ne.symm hbyte), ih hline]
    rfl

lemma cutLines_remainder {line : List UInt8} (h : newline ∉ line) (hne : line ≠ []) :
    cutLines line = [line] := by
  induction line with
  | nil => cases hne rfl
  | cons byte line ih =>
    obtain ⟨hbyte, hline⟩ := not_or.mp (mt mem_cons.mpr h)
    rw [cutLines, if_neg (Ne.symm hbyte)]
    cases line with
    | nil => rfl
    | cons _ _ => rw [ih hline (cons_ne_nil _ _)]

/-- The input of a program: its whole stream, the reader, what the call in its
loop has of its line, and what the calls before it returned. -/
structure Stdin where
  stream : List UInt8
  reader : Reader
  line : List UInt8 := []
  lines : List (List UInt8) := []
  panicked : Bool := false

namespace Stdin

/-- The call returns `line`. -/
def finish (s : Stdin) (line : List UInt8) : Stdin :=
  { s with line := [], lines := s.lines ++ [line] }

/-- What a round does with the bytes that it read. -/
def push (s : Stdin) (bytes : List UInt8) : Stdin :=
  if bytes = [] then s.finish s.line
  else if validUtf8 bytes = false then { s with panicked := true }
  else if bytes.getLast? = some newline ∨ bytes.getLast? = some 0 then s.finish (s.line ++ bytes)
  else { s with line := s.line ++ bytes }

/-- One round of the loop of `read_line`, in the call in progress or the next. -/
def round (s : Stdin) (call : InnerRead) : Option Stdin :=
  if s.panicked then none
  else match s.reader.read 1024 call with
    | none => none
    -- the error goes to the caller, what was read of the line is lost
    | some (none, r) => some { s with reader := r, line := [] }
    | some (some bytes, r) => some ({ s with reader := r }.push bytes)

/-- The read loses nothing, and its bytes are whole characters with a newline
only at their end and a zero there only at the end of the stream. -/
def clean (s : Stdin) (call : InnerRead) : Bool :=
  s.reader.lossless 1024 call && match s.reader.read 1024 call with
    | some (some bytes, r) => (bytes.isEmpty || validUtf8 bytes) &&
      !bytes.dropLast.contains newline && (bytes.getLast? != some 0 || r.pending.isEmpty)
    | _ => true

/-- The lines returned so far are lines of the stream, and an empty one was
returned only at its end. -/
structure Inv (s : Stdin) : Prop where
  cut : cutLines s.stream = s.lines.filter (!·.isEmpty) ++ cutLines (s.line ++ s.reader.pending)
  line : newline ∉ s.line
  ended : [] ∈ s.lines → s.line ++ s.reader.pending = []
  panicked : s.panicked = false

variable {s : Stdin}

/-- What a clean read hands to the round. -/
structure Piece (s : Stdin) (bytes : List UInt8) (r : Reader) : Prop where
  pending : bytes ++ r.pending = s.reader.pending
  ended : bytes = [] → s.reader.pending = []
  valid : bytes = [] ∨ validUtf8 bytes = true
  newline_last : newline ∉ bytes.dropLast
  zero_last : bytes.getLast? = some 0 → r.pending = []

lemma round_cases (hclean : s.clean call) (hstep : s.round call = some t) :
    ∃ bytes r, s.Piece bytes r ∧ t = { s with reader := r }.push bytes := by
  rw [Stdin.round] at hstep
  rw [clean, Bool.and_eq_true] at hclean
  obtain ⟨hok, hbytes⟩ := hclean
  split at hstep
  · cases hstep
  cases hread : s.reader.read 1024 call with
  | none => simp [hread] at hstep
  | some out =>
    obtain ⟨bytes, r⟩ := out
    obtain ⟨bytes, rfl, hpend, hend⟩ := Reader.read_pending hok hread
    rw [hread] at hbytes hstep
    simp only [Bool.and_eq_true, Bool.or_eq_true, List.isEmpty_iff, Bool.not_eq_true',
      bne_iff_ne] at hbytes
    obtain ⟨⟨hvalid, hlast⟩, hzero⟩ := hbytes
    refine ⟨bytes, r, ⟨hpend, fun hnil => hend hnil (by omega), hvalid, by simpa using hlast, ?_⟩,
      (Option.some.inj hstep).symm⟩
    exact fun hnul => hzero.resolve_left (not_not.mpr hnul)

/-- The call returns `line`, and `cutLines` cuts there, too. -/
lemma Inv.finish {line : List UInt8}
    (hcut : cutLines s.stream = s.lines.filter (!·.isEmpty) ++ cutLines (line ++ s.reader.pending))
    (hline : cutLines (line ++ s.reader.pending) =
      [line].filter (!·.isEmpty) ++ cutLines s.reader.pending)
    (hended : [] ∈ s.lines ∨ line = [] → s.reader.pending = []) (hok : s.panicked = false) :
    (s.finish line).Inv := by
  refine ⟨?_, not_mem_nil, fun hmem => ?_, hok⟩
  · change cutLines s.stream = (s.lines ++ [line]).filter _ ++ cutLines s.reader.pending
    rw [hcut, hline, filter_append, append_assoc]
  · apply hended
    simpa [Stdin.finish, eq_comm] using hmem

lemma Inv.push (h : s.Inv) (hp : s.Piece bytes r) : ({ s with reader := r }.push bytes).Inv := by
  obtain ⟨hpend, hend, hvalid, hlast, hzero⟩ := hp
  have hcut := h.cut
  have hended := h.ended
  rw [← hpend] at hcut hended
  rcases eq_nil_or_concat' bytes with rfl | ⟨init, last, rfl⟩
  · rw [Stdin.push, if_pos rfl]
    have hnil : r.pending = [] := hpend.trans (hend rfl)
    refine Inv.finish hcut ?_ (fun _ => hnil) h.panicked
    change cutLines (s.line ++ r.pending) = _ ++ cutLines r.pending
    rw [hnil, append_nil]
    by_cases hline : s.line = []
    · simp [hline, cutLines]
    · simp [hline, cutLines_remainder h.line hline, cutLines]
  rw [dropLast_concat] at hlast
  rw [getLast?_concat] at hzero
  have hinit : newline ∉ s.line ++ init := by simp [h.line, hlast]
  have hword : last ≠ newline → newline ∉ s.line ++ (init ++ [last]) := by
    intro hne
    simp [h.line, hlast, hne.symm]
  have hmore : [] ∉ s.lines := by simpa using hended
  rw [← append_assoc] at hcut
  simp only [Stdin.push, getLast?_concat, Option.some.injEq]
  rw [if_neg (by simp), if_neg (by simpa using hvalid)]
  split
  · next hstop =>
    refine Inv.finish hcut ?_ (by simp [hmore]) h.panicked
    rcases hstop with rfl | rfl
    · simpa using cutLines_newline hinit r.pending
    · rw [hzero rfl, append_nil, cutLines_remainder (hword (by decide)) (by simp)]
      simp [cutLines]
  · next hstop =>
    exact ⟨hcut, hword (not_or.mp hstop).1, fun hmem => absurd hmem hmore, h.panicked⟩

lemma push_progress (hp : s.Piece bytes r) :
    ({ s with reader := r }.push bytes).lines.length = s.lines.length + 1 ∨
      ({ s with reader := r }.push bytes).reader.pending.length < s.reader.pending.length := by
  by_cases hnil : bytes = []
  · simp [Stdin.push, hnil, Stdin.finish]
  · right
    have hreader : ({ s with reader := r }.push bytes).reader = r := by
      simp only [Stdin.push]
      split_ifs <;> rfl
    have hpos := length_pos_of_ne_nil hnil
    rw [hreader, ← hp.pending, length_append]
    omega

end Stdin

def machine : Machine Stdin InnerRead where
  start s := ∃ stream, s = { stream, reader := .withCapacity stream 4096 }
  step := Stdin.round

/-- As long as every read is clean, the calls return the lines of the stream: no
call panics, and each round ends its call or leaves fewer bytes to read. -/
theorem readLine_cuts_at_newlines (s : Stdin)
    (hs : machine.ReachableUnder (fun s call => s.clean call) s) :
    s.panicked = false ∧
    cutLines s.stream = s.lines.filter (!·.isEmpty) ++ cutLines (s.line ++ s.reader.pending) ∧
    ([] ∈ s.lines → s.line ++ s.reader.pending = []) ∧
    ∀ call t, s.clean call → machine.step s call = some t →
      t.lines.length = s.lines.length + 1 ∨ t.reader.pending.length < s.reader.pending.length := by
  have hinv : s.Inv := by
    apply hs.invariant (P := Stdin.Inv)
    · rintro s ⟨stream, rfl⟩
      exact ⟨rfl, not_mem_nil, nofun, rfl⟩
    · intro s call t ih hclean hstep
      obtain ⟨bytes, r, hpiece, rfl⟩ := Stdin.round_cases hclean hstep
      exact ih.push hpiece
  refine ⟨hinv.panicked, hinv.cut, hinv.ended, fun call t hclean hstep => ?_⟩
  obtain ⟨bytes, r, hpiece, rfl⟩ := Stdin.round_cases hclean hstep
  exact Stdin.push_progress hpiece

/-- Two lines of a terminal, one in each read, and the end of the input. -/
theorem readLine_cuts_at_newlines_terminal :
    ∃ s, machine.ReachableUnder (fun s call => s.clean call) s ∧
      s.lines = [[97, 10], [98, 10], []] ∧ cutLines s.stream = [[97, 10], [98, 10]] := by
  have hrun : ((machine.runUnder (fun s call => s.clean call)
      { stream := [97, 10, 98, 10], reader := .withCapacity [97, 10, 98, 10] 4096 }
      [.deliver 2, .deliver 2, .deliver 0]).map fun s => (s.lines, s.line ++ s.reader.pending)) =
      some ([[97, 10], [98, 10], []], []) := by
    decide +kernel
  obtain ⟨s, hs, heq⟩ := Option.map_eq_some_iff.mp hrun
  obtain ⟨hlines, hpend⟩ := Prod.mk.inj heq
  have hreach := Machine.ReachableUnder.runUnder (.start (M := machine) ⟨_, rfl⟩) hs
  refine ⟨s, hreach, hlines, ?_⟩
  rw [(readLine_cuts_at_newlines s hreach).2.1, hlines, hpend]
  rfl

/-- Two lines in one read are returned as one. -/
theorem two_lines_as_one : (machine.run
    { stream := [97, 10, 98, 10], reader := .withCapacity [97, 10, 98, 10] 4096 }
    [.deliver 4]).map Stdin.lines = some [[97, 10, 98, 10]] ∧
      cutLines [97, 10, 98, 10] = [[97, 10], [98, 10]] := by
  decide +kernel

end Redwing.StdinLines
