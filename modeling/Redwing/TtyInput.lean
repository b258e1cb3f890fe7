/-
What a terminal delivers.  A reference editor keeps the line as the text before
and after the cursor and reads the whole input at once; the lines it produces
are, in order, what the reads of the foreground task return.
-/
import Redwing.Machine
import Redwing.Tty

namespace Redwing.Tty

open List

/-! ### The reference editor -/

inductive Command
  | insert (ch : UInt8)
  | finish (ch : UInt8)
  | tab
  | endOfInput
  | backspace
  | left
  | right
  | home
  | toEnd
  | killLine
deriving DecidableEq

/-- A line under the cursor and the lines finished so far.  The text before the
cursor is kept with its last character first. -/
structure Editor where
  before : List UInt8
  after : List UInt8
  lines : List (List UInt8)
deriving DecidableEq

namespace Editor

def empty : Editor := ⟨[], [], []⟩

variable (e : Editor)

def line : List UInt8 := e.before.reverse ++ e.after

def insert (ch : UInt8) : Editor := { e with before := ch :: e.before }

def finish (ch : UInt8) : Editor := ⟨[], [], e.lines ++ [e.line ++ [ch]]⟩

/-- A tabulator becomes a blank at the start of a line, and the end of input is
a line of its own. -/
def apply : Command → Editor
  | .insert ch => e.insert ch
  | .finish ch => e.finish ch
  | .tab => if e.line.all isAsciiWhitespace then e.insert 32 else e
  | .endOfInput => if e.line = [] then e.finish 0 else e
  | .backspace => { e with before := e.before.tail }
  | .left =>
    match e.before with
    | [] => e
    | ch :: rest => { e with before := rest, after := ch :: e.after }
  | .right =>
    match e.after with
    | [] => e
    | ch :: rest => { e with before := ch :: e.before, after := rest }
  | .home => { e with before := [], after := e.line }
  | .toEnd => { e with before := e.line.reverse, after := [] }
  | .killLine => { e with before := [], after := [] }

def applyAll (commands : List Command) : Editor := commands.foldl apply e

end Editor

def command (ch : UInt8) : Command :=
  if ch = 0 then .finish 0
  else if ch = 10 ∨ ch = 13 then .finish 10
  else if ch = 9 then .tab
  else if ch = 4 then .endOfInput
  else if ch = 8 ∨ ch = 127 then .backspace
  else if ch = 21 then .killLine
  else .insert ch

/-- The commands of an escape sequence; unknown ones have none. -/
def escape : UInt8 → UInt8 → List Command
  | 91, 68 => [.left]
  | 91, 67 => [.right]
  | 91, 72 => [.home]
  | 91, 70 => [.toEnd]
  | _, _ => []

/-- The commands of an input.  An escape takes the next two bytes with it,
whatever they are. -/
def decode : List UInt8 → List Command
  | [] => []
  | ch :: rest =>
    if ch = 27 then
      match rest with
      | a :: b :: rest => escape a b ++ decode rest
      | _ => []
    else command ch :: decode rest

def edited (input : List UInt8) : Editor := Editor.empty.applyAll (decode input)

def refLines (input : List UInt8) : List (List UInt8) := (edited input).lines

example : refLines [97, 99, 27, 91, 68, 98, 10, 4, 120, 21, 121, 13] =
    [[97, 98, 99, 10], [0], [121, 10]] := by decide

/-! ### Inputs that end outside an escape sequence -/

lemma decode_cons_byte (hch : ch ≠ 27) : decode (ch :: rest) = command ch :: decode rest := by
  rw [decode.eq_def]
  exact if_neg hch

lemma decode_cons_escape : decode (27 :: a :: b :: rest) = escape a b ++ decode rest := by
  rw [decode.eq_def]
  exact if_pos rfl

/-- Nothing of the input is still waiting for the rest of its escape
sequence. -/
def Closed (input : List UInt8) : Prop :=
  ∀ more, decode (input ++ more) = decode input ++ decode more

lemma closed_nil : Closed [] := fun _ => rfl

lemma Closed.decode_byte (h : Closed input)
    (hch : ch ≠ 27) : decode (input ++ [ch]) = decode input ++ [command ch] := by
  rw [h, decode_cons_byte hch]
  rfl

lemma Closed.byte (h : Closed input) (hch : ch ≠ 27) : Closed (input ++ [ch]) := by
  intro more
  rw [h.decode_byte hch, append_assoc, h, append_assoc]
  exact congrArg (decode input ++ ·) (decode_cons_byte hch)

lemma Closed.decode_escape (h : Closed input) :
    decode (input ++ [27, a, b]) = decode input ++ escape a b := by
  rw [h, decode_cons_escape]
  simp [decode]

lemma Closed.escape (h : Closed input) (a b : UInt8) : Closed (input ++ [27, a, b]) := by
  intro more
  rw [h.decode_escape, append_assoc, h, append_assoc]
  exact congrArg (decode input ++ ·) decode_cons_escape

/-! ### Keys and commands -/

def Key.commands : Key → List Command
  | .eof => [.finish 0]
  | .down | .up | .ignored => []
  | .left => [.left]
  | .right => [.right]
  | .backspace => [.backspace]
  | .ctrlU => [.killLine]
  | .ctrlD => [.endOfInput]
  | .home => [.home]
  | .toEnd => [.toEnd]
  | .normal ch =>
    if ch = 9 then [.tab]
    else if ch = 10 ∨ ch = 13 then [.finish 10]
    else if ch = 0 then [.finish 0]
    else [.insert ch]

lemma commands_ofByte (hch : ch ≠ 27) : (Key.ofByte ch).commands = [command ch] := by
  by_cases hmem : ch ∈ [0, 4, 8, 9, 10, 13, 21, 127]
  · simp only [mem_cons, not_mem_nil, or_false] at hmem
    rcases hmem with rfl | rfl | rfl | rfl | rfl | rfl | rfl | rfl <;> rfl
  · simp only [mem_cons, not_mem_nil, or_false, not_or] at hmem
    simp [Key.ofByte, command, Key.commands, hch, hmem]

lemma commands_fromEscape : (Key.fromEscape a b).commands = escape a b := by
  unfold Key.fromEscape escape
  split_ifs <;> simp_all [Key.commands]

/-! ### The line discipline follows the editor -/

namespace LineDiscipline

variable (d : LineDiscipline) (op : ScreenOp)

@[simp] lemma echoOp_lineBuffer : (d.echoOp op).lineBuffer = d.lineBuffer := by
  unfold echoOp
  split <;> rfl

@[simp] lemma echoOp_edit : (d.echoOp op).edit = d.edit := by
  unfold echoOp
  split <;> rfl

@[simp] lemma echoOp_completedLines : (d.echoOp op).completedLines = d.completedLines := by
  unfold echoOp
  split <;> rfl

@[simp] lemma echoOp_readEscapeIdx : (d.echoOp op).readEscapeIdx = d.readEscapeIdx := by
  unfold echoOp
  split <;> rfl

@[simp] lemma echoOp_escapeChars : (d.echoOp op).escapeChars = d.escapeChars := by
  unfold echoOp
  split <;> rfl

/-- What editing leaves alone. -/
structure SameEscape (d d' : LineDiscipline) : Prop where
  idx : d'.readEscapeIdx = d.readEscapeIdx
  chars : d'.escapeChars = d.escapeChars

end LineDiscipline

open LineDiscipline

/-- The discipline holds the line and the cursor of the editor, and the lines of
the editor except for those already taken. -/
structure Shows (d : LineDiscipline) (e : Editor)
    (taken : List (List UInt8)) : Prop where
  line : d.lineBuffer = e.line
  edit : d.edit = e.before.length
  lines : e.lines = taken ++ d.completedLines

lemma Shows.edit_le (h : Shows d e taken) : d.edit ≤ d.lineBuffer.length := by
  rw [h.edit, h.line]
  simp [Editor.line]

lemma insertIdx_length_append {α : Type} (l r : List α) (a : α) :
    (l ++ r).insertIdx l.length a = l ++ a :: r := by
  induction l with
  | nil => rfl
  | cons head tail ih => simp [ih]

/-- One key does to the discipline what its commands do to the editor. -/
structure Edits (d : LineDiscipline) (taken : List (List UInt8))
    (r : Option LineDiscipline) (e : Editor) : Prop where
  out : ∃ d', r = some d' ∧ SameEscape d d' ∧ Shows d' e taken

section

variable {d : LineDiscipline} {e : Editor} {taken : List (List UInt8)}

section

variable (h : Shows d e taken)

include h

lemma Shows.finish (hch : c = 10 ∨ c = 0) :
    Edits d taken (d.insertCharToBuffer c) (e.finish c) := by
  refine ⟨_, if_pos hch, ?_, ?_⟩
  · constructor <;> simp
  constructor
  · simp [Editor.finish, Editor.line]
  · simp [Editor.finish]
  · simp [Editor.finish, h.lines, h.line]

lemma Shows.insert (hch : ¬(c = 10 ∨ c = 0)) :
    Edits d taken (d.insertCharToBuffer c) (e.insert c) := by
  have hle : ¬d.lineBuffer.length < d.edit := Nat.not_lt.mpr h.edit_le
  have hline : d.lineBuffer.insertIdx d.edit c = (e.insert c).line := by
    have hidx := insertIdx_length_append e.before.reverse e.after c
    rw [length_reverse] at hidx
    rw [h.line, h.edit, Editor.line, hidx]
    simp [Editor.insert, Editor.line]
  unfold insertCharToBuffer
  rw [if_neg hch, if_neg hle]
  refine ⟨_, rfl, ?_, ?_⟩
  · constructor <;> split <;> simp
  constructor
  · rw [← hline]
    split <;> simp
  · split <;> simp [Editor.insert, h.edit]
  · split <;> simp [Editor.insert, h.lines]

lemma Shows.backspace : Edits d taken (some d.deleteChar) (e.apply .backspace) := by
  refine ⟨_, rfl, ?_, ?_⟩ <;> unfold deleteChar
  · constructor <;> split <;> simp
  · cases hbefore : e.before with
    | nil =>
      rw [if_pos (by rw [h.edit, hbefore]; rfl)]
      exact ⟨by simpa [Editor.apply, hbefore, Editor.line] using h.line,
        by simpa [Editor.apply, hbefore] using h.edit, h.lines⟩
    | cons ch rest =>
      have hedit : d.edit = rest.length + 1 := by rw [h.edit, hbefore]; rfl
      rw [if_neg (by rw [hedit]; exact Nat.succ_ne_zero _)]
      constructor
      · simp [h.line, Editor.line, Editor.apply, hbefore, hedit, eraseIdx_append]
      · simp [Editor.apply, hbefore, hedit]
      · simpa [Editor.apply] using h.lines

lemma Shows.killLine : Edits d taken (some d.clearLine) (e.apply .killLine) := by
  refine ⟨_, rfl, ?_, ?_⟩
  · constructor <;> simp [clearLine]
  · exact ⟨rfl, rfl, by simpa [clearLine, Editor.apply] using h.lines⟩

lemma Shows.home : Edits d taken (d.inputKey .home) (e.apply .home) := by
  refine ⟨_, rfl, ?_, ?_⟩
  · constructor <;> simp
  constructor
  · simpa [Editor.apply, Editor.line] using h.line
  · rfl
  · simpa [Editor.apply] using h.lines

lemma Shows.toEnd : Edits d taken (d.inputKey .toEnd) (e.apply .toEnd) := by
  have hle : ¬(d.echo = true ∧ d.lineBuffer.length < d.edit) := fun hlt =>
    absurd hlt.2 (Nat.not_lt.mpr h.edit_le)
  refine ⟨_, if_neg hle, ?_, ?_⟩
  · constructor <;> simp
  constructor
  · simpa [Editor.apply, Editor.line] using h.line
  · simp [Editor.apply, h.line]
  · simpa [Editor.apply] using h.lines

lemma Shows.left : Edits d taken (d.inputKey .left) (e.apply .left) := by
  cases hbefore : e.before with
  | nil =>
    have hedit : d.edit = 0 := by rw [h.edit, hbefore]; rfl
    refine ⟨_, if_neg fun hne => hne hedit, ⟨rfl, rfl⟩, ?_⟩
    simpa [Editor.apply, hbefore] using h
  | cons ch rest =>
    have hedit : d.edit = rest.length + 1 := by rw [h.edit, hbefore]; rfl
    have hne : d.edit ≠ 0 := by rw [hedit]; exact Nat.succ_ne_zero _
    refine ⟨_, if_pos hne, ?_, ?_⟩
    · constructor <;> simp
    constructor
    · simp [Editor.apply, Editor.line, hbefore, h.line]
    · simp [Editor.apply, hbefore, hedit]
    · simpa [Editor.apply, hbefore] using h.lines

lemma Shows.right : Edits d taken (d.inputKey .right) (e.apply .right) := by
  have hlen : d.lineBuffer.length = d.edit + e.after.length := by simp [h.line, h.edit, Editor.line]
  cases hafter : e.after with
  | nil =>
    have hnot : ¬d.edit < d.lineBuffer.length := by simp [hlen, hafter]
    refine ⟨_, if_neg hnot, ⟨rfl, rfl⟩, ?_⟩
    simpa [Editor.apply, hafter] using h
  | cons ch rest =>
    have hlt : d.edit < d.lineBuffer.length := by simp [hlen, hafter]
    refine ⟨_, if_pos hlt, ?_, ?_⟩
    · constructor <;> simp
    constructor
    · simp [Editor.apply, Editor.line, hafter, h.line]
    · simp [Editor.apply, hafter, h.edit]
    · simpa [Editor.apply, hafter] using h.lines

lemma Shows.skip : Edits d taken (some d) e := ⟨d, rfl, ⟨rfl, rfl⟩, h⟩

lemma Shows.normal (ch : UInt8) : Edits d taken (d.inputKey (.normal ch))
    (e.applyAll (Key.normal ch).commands) := by
  unfold inputKey Key.commands
  by_cases htab : ch = 9
  · simp only [htab, ↓reduceIte, h.line]
    by_cases hall : e.line.all isAsciiWhitespace = true
    · simpa [hall, Editor.applyAll, Editor.apply] using h.insert (c := 32) (by decide)
    · simpa [hall, Editor.applyAll, Editor.apply] using h.skip
  simp only [htab, ↓reduceIte]
  by_cases hline : ch = 10 ∨ ch = 13
  · have hten : (if ch = 13 then 10 else ch) = 10 := by
      rcases hline with rfl | rfl <;> rfl
    simpa [hten, hline, Editor.applyAll, Editor.apply] using h.finish (c := 10) (.inl rfl)
  have hch : (if ch = 13 then 10 else ch) = ch := if_neg fun heq => hline (.inr heq)
  by_cases hnul : ch = 0
  · subst hnul
    simpa [Editor.applyAll, Editor.apply] using h.finish (.inr rfl)
  simpa [hch, hline, hnul, Editor.applyAll, Editor.apply] using h.insert (c := ch) fun hend =>
      hend.elim (fun heq => hline (.inl heq)) hnul

lemma Shows.inputKey (key : Key) : Edits d taken (d.inputKey key) (e.applyAll key.commands) := by
  cases key with
  | eof => exact h.finish (.inr rfl)
  | down | up | ignored => exact h.skip
  | left => exact h.left
  | right => exact h.right
  | backspace => exact h.backspace
  | ctrlU => exact h.killLine
  | ctrlD =>
    simp only [LineDiscipline.inputKey, h.line, Editor.applyAll, Key.commands,
      foldl_cons, foldl_nil, Editor.apply]
    by_cases hempty : e.line = []
    · simpa [hempty] using h.finish (.inr rfl)
    · simpa [hempty] using h.skip
  | home => exact h.home
  | toEnd => exact h.toEnd
  | normal ch => exact h.normal ch

end
end

/-! ### Escape sequences -/

/-- The part of an escape sequence that the discipline has read. -/
inductive Pending (d : LineDiscipline) : List UInt8 → Prop
  | outside : d.readEscapeIdx = none → d.escapeChars.length = 2 → Pending d []
  | first : d.readEscapeIdx = some 0 → d.escapeChars.length = 2 →
      Pending d [27]
  | second {a : UInt8} (old : UInt8) : d.readEscapeIdx = some 1 →
      d.escapeChars = [a, old] → Pending d [27, a]

lemma Pending.congr (h : Pending d pending) (hsame : SameEscape d d') : Pending d' pending := by
  cases h with
  | outside hidx hlen => exact .outside (hsame.idx.trans hidx) (hsame.chars ▸ hlen)
  | first hidx hlen => exact .first (hsame.idx.trans hidx) (hsame.chars ▸ hlen)
  | second old hidx hchars => exact .second old (hsame.idx.trans hidx) (hsame.chars.trans hchars)

lemma decode_pending (h : Pending d pending) : decode pending = [] := by cases h <;> rfl

/-- After `input` the discipline holds what the editor holds after all of it but
an unfinished escape sequence. -/
structure Follows (d : LineDiscipline) (input : List UInt8)
    (taken : List (List UInt8)) : Prop where
  out : ∃ complete pending, input = complete ++ pending ∧ Closed complete ∧
    Pending d pending ∧ Shows d (edited complete) taken

section

variable {d : LineDiscipline} {input : List UInt8} {taken : List (List UInt8)}

lemma follows_new : Follows .new [] [] :=
  ⟨[], [], rfl, closed_nil, .outside rfl rfl, rfl, rfl, rfl⟩

lemma edited_append (h : decode (complete ++ more) = decode complete ++ commands) :
    edited (complete ++ more) = (edited complete).applyAll commands := by
  rw [edited, h, Editor.applyAll, foldl_append]
  rfl

lemma Follows.edit_le (h : Follows d input taken) : d.edit ≤ d.lineBuffer.length := by
  obtain ⟨_, _, _, _, _, hshows⟩ := h.out
  exact hshows.edit_le

lemma Follows.lines (h : Follows d input taken) : refLines input = taken ++ d.completedLines := by
  obtain ⟨complete, pending, rfl, hclosed, hpending, hshows⟩ := h.out
  have hdecode : decode (complete ++ pending) = decode complete := by
    rw [hclosed, decode_pending hpending, append_nil]
  rw [refLines, edited, hdecode]
  exact hshows.lines

lemma inputByte_eq (hkey : d.readKey byte = some (key, d'))
    (hinput : d'.inputKey key = some d'') :
    d.inputByte byte = some
      (decide (d'.completedLines.length ≠ d''.completedLines.length), d'') := by
  simp [inputByte, hkey, hinput]

lemma inputByte_of_readKey (hkey : d.readKey byte = some (key, d'))
    (hshows : Shows d' (edited complete) taken) (hpending : Pending d' [])
    (hdecode : decode (complete ++ more) = decode complete ++ key.commands)
    (hclosed : Closed (complete ++ more)) :
    ∃ completed d'', d.inputByte byte = some (completed, d'') ∧
      Follows d'' (complete ++ more) taken := by
  obtain ⟨d'', hinput, hsame, hshows'⟩ := (hshows.inputKey key).out
  refine ⟨_, d'', inputByte_eq hkey hinput, complete ++ more, [],
    (append_nil _).symm, hclosed, hpending.congr hsame, ?_⟩
  rw [edited_append hdecode]
  exact hshows'

lemma Follows.inputByte (h : Follows d input taken) (byte : UInt8) : ∃ completed d',
    d.inputByte byte = some (completed, d') ∧ Follows d' (input ++ [byte]) taken := by
  obtain ⟨complete, pending, rfl, hclosed, hpending, hshows⟩ := h.out
  cases hpending with
  | outside hidx hlen =>
    rw [append_nil]
    by_cases hesc : byte = 27
    · subst hesc
      have hkey : d.readKey 27 = some (.ignored, { d with readEscapeIdx := some 0 }) := by
        simp [readKey, hidx]
      exact ⟨_, _, inputByte_eq hkey rfl, complete, [27], rfl, hclosed,
        .first rfl hlen, hshows.line, hshows.edit, hshows.lines⟩
    have hkey : d.readKey byte = some (Key.ofByte byte, d) := by simp [readKey, hidx, hesc]
    refine inputByte_of_readKey hkey hshows (.outside hidx hlen) ?_ (hclosed.byte hesc)
    rw [commands_ofByte hesc]
    exact hclosed.decode_byte hesc
  | first hidx hlen =>
    obtain ⟨x, y, hchars⟩ := length_eq_two.mp hlen
    have hkey : d.readKey byte = some (.ignored,
        { d with escapeChars := [byte, y], readEscapeIdx := some 1 }) := by
      simp [readKey, hidx, hchars]
    exact ⟨_, _, inputByte_eq hkey rfl, complete, [27, byte], by simp, hclosed,
      .second y rfl rfl, hshows.line, hshows.edit, hshows.lines⟩
  | @second a old hidx hchars =>
    have hkey : d.readKey byte = some (Key.fromEscape a byte,
        { d with escapeChars := [a, byte], readEscapeIdx := none }) := by
      simp [readKey, hidx, hchars]
    rw [append_assoc]
    refine inputByte_of_readKey hkey ⟨hshows.line, hshows.edit, hshows.lines⟩
      (.outside rfl rfl) ?_ (hclosed.escape a byte)
    rw [commands_fromEscape]
    exact hclosed.decode_escape

lemma Follows.take (h : Follows d input taken) {line : List UInt8}
    {rest : List (List UInt8)} (hlines : d.completedLines = line :: rest) :
    Follows { d with completedLines := rest } input (taken ++ [line]) := by
  obtain ⟨complete, pending, hinput, hclosed, hpending, hshows⟩ := h.out
  refine ⟨complete, pending, hinput, hclosed, hpending.congr ⟨rfl, rfl⟩,
    hshows.line, hshows.edit, ?_⟩
  rw [hshows.lines, hlines]
  simp

end
end Redwing.Tty
