/-
The tokenizer of the shell, `sh/parser.rs`, with the texts it slices out of the
line by byte offsets, and the escapes of `sh/utils.rs`.
-/
import Mathlib.Data.List.TakeWhile

namespace Redwing.Shell

open List

def eof : Char := '\x00'

def singleQuote : Char := '\x27'

def doubleQuote : Char := '\x22'

def backslash : Char := '\x5c'

/-- `char::is_whitespace`: the white space of Unicode. -/
def isWhitespace (ch : Char) : Bool :=
  let code := ch.toNat
  (9 ≤ code && code ≤ 13) || (0x2000 ≤ code && code ≤ 0x200a) ||
    [0x20, 0x85, 0xa0, 0x1680, 0x2028, 0x2029, 0x202f, 0x205f, 0x3000].contains code

def specialChars : List Char := [eof, '|', '&', singleQuote, doubleQuote, '<', '>', ';', '(', ')']

structure EscapeStr where
  str : List Char
  needsEscape : Bool
  deriving DecidableEq

inductive Token
  | string (str : EscapeStr)
  | variable (str : EscapeStr)
  | bitOr
  | bitAnd
  | gtGt
  | gt
  | lt
  | leftParen
  | rightParen
  | semi
  | eof
  deriving DecidableEq

/-- Cut a text at a byte offset; `none` inside a character or behind the end. -/
def splitAtByte : List Char → Nat → Option (List Char × List Char)
  | chars, 0 => some ([], chars)
  | [], _ + 1 => none
  | ch :: chars, offset + 1 =>
    if ch.utf8Size ≤ offset + 1 then
      (splitAtByte chars (offset + 1 - ch.utf8Size)).map fun (left, right) => (ch :: left, right)
    else none

/-- The slice `&buf[start..end]`; `none` is a panic. -/
def sliceBytes (buf : List Char) (start stop : Nat) : Option (List Char) :=
  (splitAtByte buf start).bind fun (_, rest) => (splitAtByte rest (stop - start)).map (·.1)

/-- The characters left and the number of those consumed. -/
structure Tokenizer where
  chars : List Char
  pos : Nat

namespace Tokenizer

variable (buf : List Char)

/-- Consume `run`, which stands at the front of the characters. -/
def advance (t : Tokenizer) (run rest : List Char) : Tokenizer := ⟨rest, t.pos + run.length⟩

/-- The loops `while p(self.peek())`, for a `p` that stops at `EOF`. -/
def consumeWhile (p : Char → Bool) (t : Tokenizer) : Tokenizer :=
  t.advance (t.chars.takeWhile p) (t.chars.dropWhile p)

/-- What `consume_until` consumes, and what it leaves. -/
def consumeUntil (terminal : Char) (escaped : Bool) : List Char → List Char × List Char
  | [] => ([], [])
  | [ch] => if ch = terminal ∨ ch = eof then ([], [ch]) else ([ch], [])
  | ch :: next :: chars =>
    if ch = terminal ∨ ch = eof then ([], ch :: next :: chars)
    else if escaped ∧ ch = backslash ∧ next = terminal then
      let (run, rest) := consumeUntil terminal escaped chars
      (ch :: next :: run, rest)
    else
      let (run, rest) := consumeUntil terminal escaped (next :: chars)
      (ch :: run, rest)

/-- `parse_string` of a text in quotes; an error names the character found in
the place of the closing quote. -/
def parseQuoted (t : Tokenizer) (terminal : Char) (escaped : Bool) :
    Option (Except Char Token × Tokenizer) :=
  let (run, rest) := consumeUntil terminal escaped t.chars
  let u := t.advance run rest
  match rest with
  | [] => some (.error eof, u)
  | ch :: chars =>
    if ch = terminal then
      (sliceBytes buf t.pos u.pos).map fun str =>
        (.ok (.string ⟨str, escaped⟩), u.advance [ch] chars)
    else some (.error ch, u)

/-- `parse_string` of a text without quotes, whose first character is consumed
already. -/
def parseWord (t : Tokenizer) : Option (Except Char Token × Tokenizer) :=
  let u := t.consumeWhile fun ch => !isWhitespace ch && !specialChars.contains ch
  (sliceBytes buf (t.pos - 1) u.pos).map fun str =>
    match str with
    | '$' :: name => (.ok (.variable ⟨name, false⟩), u)
    | _ => (.ok (.string ⟨str, false⟩), u)

/-- The tokens of one character. -/
def single : List (Char × Token) :=
  [('|', .bitOr), ('&', .bitAnd), (';', .semi), ('(', .leftParen), (')', .rightParen), ('<', .lt)]

/-- The next item and what is left behind it; `none` is a panic. -/
def parseToken (t : Tokenizer) : Option (Except Char Token × Tokenizer) :=
  let t := t.consumeWhile isWhitespace
  match t.chars with
  | [] => some (.ok .eof, t)
  | ch :: chars =>
    let u := t.advance [ch] chars
    if ch = eof then some (.ok .eof, u)
    else match single.lookup ch with
      | some token => some (.ok token, u)
      | none =>
        if ch = '>' then
          match chars with
          | '>' :: rest => some (.ok .gtGt, u.advance ['>'] rest)
          | _ => some (.ok .gt, u)
        else if ch = singleQuote then u.parseQuoted buf singleQuote false
        else if ch = doubleQuote then u.parseQuoted buf doubleQuote true
        else u.parseWord buf

/-- The items of the iterator, up to `Eof`; the fuel bounds their number. -/
def items : Nat → Tokenizer → Option (List (Except Char Token))
  | 0, _ => none
  | fuel + 1, t =>
    match t.parseToken buf with
    | none => none
    | some (.ok .eof, _) => some []
    | some (item, u) => (items fuel u).map (item :: ·)

end Tokenizer

/-- All tokens of a line; `none` is a panic. -/
def tokenize (line : List Char) : Option (List (Except Char Token)) :=
  Tokenizer.items line (line.length + 1) ⟨line, 0⟩

/-! ### What the tokenizer consumes -/

inductive Kind
  | quoted (escaped : Bool)
  | word

/-- The token of a text; a word that starts with `$` is the name behind it. -/
def Kind.token : Kind → List Char → Token
  | .quoted escaped, str => .string ⟨str, escaped⟩
  | .word, '$' :: name => .variable ⟨name, false⟩
  | .word, str => .string ⟨str, false⟩

/-- What is consumed for an item: for a text the `run` of characters, behind
`start` characters of the line, and for any other the item itself. -/
inductive Piece
  | text (kind : Kind) (start : Nat) (run : List Char)
  | other (item : Except Char Token)

/-- The item as it is to be: a text is the run that was consumed for it. -/
def Piece.intended : Piece → Except Char Token
  | .text kind _ run => .ok (kind.token run)
  | .other item => item

namespace Tokenizer

def scanQuoted (t : Tokenizer) (terminal : Char) (escaped : Bool) : Piece × Tokenizer :=
  let (run, rest) := consumeUntil terminal escaped t.chars
  let u := t.advance run rest
  match rest with
  | [] => (.other (.error eof), u)
  | ch :: chars =>
    if ch = terminal then (.text (.quoted escaped) t.pos run, u.advance [ch] chars)
    else (.other (.error ch), u)

def scanWord (t : Tokenizer) (first : Char) : Piece × Tokenizer :=
  let p := fun ch => !isWhitespace ch && !specialChars.contains ch
  (.text .word (t.pos - 1) (first :: t.chars.takeWhile p), t.consumeWhile p)

/-- `parse_token` without the slices. -/
def scan (t : Tokenizer) : Piece × Tokenizer :=
  let t := t.consumeWhile isWhitespace
  match t.chars with
  | [] => (.other (.ok .eof), t)
  | ch :: chars =>
    let u := t.advance [ch] chars
    if ch = eof then (.other (.ok .eof), u)
    else match single.lookup ch with
      | some token => (.other (.ok token), u)
      | none =>
        if ch = '>' then
          match chars with
          | '>' :: rest => (.other (.ok .gtGt), u.advance ['>'] rest)
          | _ => (.other (.ok .gt), u)
        else if ch = singleQuote then u.scanQuoted singleQuote false
        else if ch = doubleQuote then u.scanQuoted doubleQuote true
        else u.scanWord ch

def pieces : Nat → Tokenizer → List Piece
  | 0, _ => []
  | fuel + 1, t =>
    match t.scan with
    | (.other (.ok .eof), _) => []
    | (piece, u) => piece :: pieces fuel u

end Tokenizer

/-- What is consumed for the items of a line. -/
def pieces (line : List Char) : List Piece := Tokenizer.pieces (line.length + 1) ⟨line, 0⟩

/-- The length of a text in bytes. -/
def utf8Len : List Char → Nat
  | [] => 0
  | ch :: chars => ch.utf8Size + utf8Len chars

def Ascii (chars : List Char) : Prop := ∀ ch ∈ chars, ch.toNat < 128

/-- A run is ASCII and stands in the line, there or elsewhere, behind as many
bytes as there are characters in front of it. -/
def Piece.CutRight (line : List Char) : Piece → Prop
  | .text _ start run => Ascii run ∧ ∃ left right, line = left ++ run ++ right ∧
      utf8Len left = start
  | .other _ => True

lemma splitAtByte_append {run : List Char} (h : Ascii run) :
    splitAtByte (run ++ rest) run.length = some (run, rest) := by
  induction run with
  | nil => cases rest <;> rfl
  | cons ch run ih =>
    obtain ⟨hch, hrun⟩ := forall_mem_cons.mp h
    have hsize : ch.utf8Size = 1 := Char.utf8Size_eq_one_iff.mpr (Nat.le_of_lt_succ hch)
    rw [cons_append, length_cons, splitAtByte, hsize, if_pos (by omega), Nat.add_sub_cancel,
      ih hrun]
    rfl

lemma sliceBytes_append {before run : List Char} (h : Ascii (before ++ run)) :
    sliceBytes (before ++ run ++ rest) before.length (before.length + run.length) = some run := by
  obtain ⟨hbefore, hrun⟩ := forall_mem_append.mp h
  rw [sliceBytes, append_assoc, splitAtByte_append hbefore, Nat.add_sub_cancel_left]
  exact congrArg (Option.map _) (splitAtByte_append hrun)

namespace Tokenizer

lemma consumeUntil_append (terminal : Char) (escaped : Bool) (chars : List Char) :
    (consumeUntil terminal escaped chars).1 ++ (consumeUntil terminal escaped chars).2 =
      chars := by
  fun_induction consumeUntil terminal escaped chars <;> simp_all

variable {buf : List Char} {t : Tokenizer}

/-- The tokenizer has consumed as many characters of the line as it counted. -/
def At (buf : List Char) (t : Tokenizer) : Prop :=
  ∃ before, buf = before ++ t.chars ∧ before.length = t.pos

lemma At.advance {run rest : List Char} (ht : t.At buf) (h : t.chars = run ++ rest) :
    (t.advance run rest).At buf := by
  obtain ⟨before, rfl, hpos⟩ := ht
  exact ⟨before ++ run, by rw [h, append_assoc]; rfl, by simp [Tokenizer.advance, hpos]⟩

lemma At.slice (hbuf : Ascii buf) (ht : t.At buf) {run rest : List Char}
    (h : t.chars = run ++ rest) : sliceBytes buf t.pos (t.advance run rest).pos = some run := by
  obtain ⟨before, rfl, hpos⟩ := ht
  rw [h, ← append_assoc] at hbuf ⊢
  rw [Tokenizer.advance, ← hpos]
  exact sliceBytes_append (fun ch hch => hbuf ch (mem_append_left _ hch))

lemma At.drop_take {run rest : List Char} (ht : t.At buf) (h : t.chars = run ++ rest) :
    (buf.drop t.pos).take run.length = run := by
  obtain ⟨before, rfl, hpos⟩ := ht
  rw [← hpos, drop_left, h, take_left]

/-- What a scan guarantees: it goes on in the line unless that is at its end, and
a text is the run at its place in the line. -/
structure Scans (buf chars : List Char) (result : Piece × Tokenizer) : Prop where
  at_ : result.2.At buf
  shorter : result.1 = .other (.ok .eof) ∨ result.2.chars.length < chars.length
  run : ∀ kind start run, result.1 = .text kind start run →
    (buf.drop start).take run.length = run

variable {chars : List Char}

lemma Scans.other {u : Tokenizer} (hu : u.At buf) (hlen : u.chars.length < chars.length)
    (item : Except Char Token) : Scans buf chars (.other item, u) := ⟨hu, .inr hlen, nofun⟩

lemma scanQuoted_scans (ht : t.At buf) (hlen : t.chars.length < chars.length) (terminal : Char)
    (escaped : Bool) : Scans buf chars (t.scanQuoted terminal escaped) := by
  have happend := consumeUntil_append terminal escaped t.chars
  rw [scanQuoted]
  generalize consumeUntil terminal escaped t.chars = split at happend ⊢
  obtain ⟨run, rest⟩ := split
  have hrest : rest.length ≤ t.chars.length := by simp [← happend]
  have hat := ht.advance happend.symm
  match rest with
  | [] => exact .other hat (by simp [Tokenizer.advance]; omega) _
  | ch :: chars =>
    rw [length_cons] at hrest
    dsimp only
    split
    · refine ⟨hat.advance rfl, .inr (by simp [Tokenizer.advance]; omega), ?_⟩
      rintro kind start run' heq
      cases heq
      exact ht.drop_take happend.symm
    · exact .other hat (by simp [Tokenizer.advance]; omega) _

lemma scanWord_scans {first : Char} (ht : (⟨first :: t.chars, t.pos - 1⟩ : Tokenizer).At buf)
    (hpos : 0 < t.pos) (hlen : t.chars.length < chars.length) :
    Scans buf chars (t.scanWord first) := by
  have happend := takeWhile_append_dropWhile
    (p := fun ch => !isWhitespace ch && !specialChars.contains ch) (l := t.chars)
  rw [scanWord, consumeWhile]
  generalize takeWhile _ t.chars = run at happend ⊢
  generalize dropWhile _ t.chars = rest at happend ⊢
  have hrest : rest.length ≤ t.chars.length := by simp [← happend]
  have hsplit : (⟨first :: t.chars, t.pos - 1⟩ : Tokenizer).chars = first :: run ++ rest := by
    rw [cons_append, happend]
  have hadvance : t.advance run rest =
      (⟨first :: t.chars, t.pos - 1⟩ : Tokenizer).advance (first :: run) rest := by
    simp only [Tokenizer.advance, length_cons, mk.injEq, true_and]
    omega
  refine ⟨hadvance ▸ ht.advance hsplit, .inr (Nat.lt_of_le_of_lt hrest hlen), ?_⟩
  rintro kind start run' heq
  cases heq
  exact ht.drop_take hsplit

lemma scan_scans (ht : t.At buf) : Scans buf t.chars t.scan := by
  have happend := takeWhile_append_dropWhile (p := isWhitespace) (l := t.chars)
  rw [scan, consumeWhile]
  generalize takeWhile _ t.chars = space at happend ⊢
  generalize dropWhile _ t.chars = rest at happend ⊢
  have hat := ht.advance happend.symm
  match rest with
  | [] => exact ⟨hat, .inl rfl, nofun⟩
  | ch :: chars =>
    have hnext := hat.advance (show _ = [ch] ++ chars from rfl)
    have hlen : chars.length < t.chars.length := by simp [← happend]; omega
    dsimp only [Tokenizer.advance] at hat hnext ⊢
    split
    · exact ⟨hnext, .inl rfl, nofun⟩
    split
    · exact .other hnext hlen _
    split
    · split
      · next rest =>
        exact .other (hnext.advance (show _ = ['>'] ++ rest from rfl)) (Nat.lt_of_succ_lt hlen) _
      · exact .other hnext hlen _
    split
    · exact scanQuoted_scans hnext hlen _ _
    split
    · exact scanQuoted_scans hnext hlen _ _
    · exact scanWord_scans hat (Nat.succ_pos _) hlen

end Tokenizer

/-! ### The slices -/

lemma splitAtByte_eq_some_iff {chars left right : List Char} {offset : Nat} :
    splitAtByte chars offset = some (left, right) ↔
      chars = left ++ right ∧ utf8Len left = offset := by
  have hpos := Char.utf8Size_pos
  induction chars generalizing offset left with
  | nil =>
    cases offset with
    | zero => cases left <;> simp [splitAtByte, utf8Len, eq_comm]
    | succ offset => cases left <;> simp [splitAtByte, utf8Len]
  | cons ch chars ih =>
    cases offset with
    | zero =>
      cases left with
      | nil => simp [splitAtByte, utf8Len]
      | cons first left =>
        have hfirst := hpos first
        simp [splitAtByte, utf8Len]
        omega
    | succ offset =>
      rw [splitAtByte]
      cases left with
      | nil =>
        simp [utf8Len]
      | cons first left =>
        have hfirst := hpos first
        rw [utf8Len]
        split
        · simp only [Option.map_eq_some_iff, Prod.exists, Prod.mk.injEq, cons.injEq, cons_append]
          constructor
          · rintro ⟨l, r, hsplit, ⟨rfl, rfl⟩, rfl⟩
            obtain ⟨hchars, hlen⟩ := ih.mp hsplit
            exact ⟨⟨rfl, hchars⟩, by omega⟩
          · rintro ⟨⟨rfl, hchars⟩, hlen⟩
            exact ⟨left, right, ih.mpr ⟨hchars, by omega⟩, ⟨rfl, rfl⟩, rfl⟩
        · refine iff_of_false nofun ?_
          rintro ⟨heq, hlen⟩
          cases heq
          omega

lemma utf8Len_eq_length_iff (chars : List Char) : utf8Len chars = chars.length ↔ Ascii chars := by
  have hle (chars : List Char) : chars.length ≤ utf8Len chars := by
    induction chars with
    | nil => exact Nat.le_refl 0
    | cons ch chars ih =>
      have hpos := ch.utf8Size_pos
      simp only [utf8Len, length_cons] at ih ⊢
      omega
  induction chars with
  | nil => simp [utf8Len, Ascii]
  | cons ch chars ih =>
    have hpos := ch.utf8Size_pos
    have hchars := hle chars
    have hone : ch.utf8Size = 1 ↔ ch.toNat < 128 :=
      Char.utf8Size_eq_one_iff.trans Nat.lt_succ_iff.symm
    rw [Ascii, forall_mem_cons, ← hone, show (∀ x ∈ chars, x.toNat < 128) ↔ _ from ih.symm]
    simp only [utf8Len, length_cons] at hchars ⊢
    omega

lemma sliceBytes_eq_some_iff {buf run : List Char} {start len : Nat} :
    sliceBytes buf start (start + len) = some run ↔
      utf8Len run = len ∧ ∃ left right, buf = left ++ run ++ right ∧ utf8Len left = start := by
  simp only [sliceBytes, Nat.add_sub_cancel_left, Option.bind_eq_some_iff, Option.map_eq_some_iff,
    Prod.exists, splitAtByte_eq_some_iff]
  constructor
  · rintro ⟨left, _, ⟨rfl, hleft⟩, _, right, ⟨rfl, hrun⟩, rfl⟩
    exact ⟨hrun, left, right, (append_assoc ..).symm, hleft⟩
  · rintro ⟨hrun, left, right, rfl, hleft⟩
    exact ⟨left, _, ⟨append_assoc .., hleft⟩, run, right, ⟨rfl, hrun⟩, rfl⟩

lemma Kind.token_inj {kind : Kind} {str str' : List Char} :
    kind.token str = kind.token str' ↔ str = str' := by
  refine ⟨fun h => ?_, congrArg _⟩
  cases kind with
  | quoted escaped => simpa [token] using h
  | word =>
    unfold token at h
    split at h <;> split at h <;> simp_all

lemma Kind.token_ne_eof (kind : Kind) (str : List Char) : kind.token str ≠ .eof := by
  unfold token
  split <;> nofun

/-- The item of a piece with the text that is sliced out of the line. -/
def Piece.read (line : List Char) : Piece → Option (Except Char Token)
  | .text kind start run =>
    (sliceBytes line start (start + run.length)).map fun str => .ok (kind.token str)
  | .other item => some item

lemma Piece.read_eq_iff (line : List Char) (piece : Piece) :
    piece.read line = some piece.intended ↔ piece.CutRight line := by
  cases piece with
  | other item => exact iff_of_true rfl trivial
  | text kind start run =>
    simp only [read, intended, CutRight, Option.map_eq_some_iff, Except.ok.injEq, Kind.token_inj,
      exists_eq_right, sliceBytes_eq_some_iff, utf8Len_eq_length_iff]

namespace Tokenizer

variable {line : List Char} {t : Tokenizer}

lemma parseQuoted_eq (t : Tokenizer) (terminal : Char) (escaped : Bool) :
    t.parseQuoted line terminal escaped =
      ((t.scanQuoted terminal escaped).1.read line).map (·, (t.scanQuoted terminal escaped).2) := by
  rw [parseQuoted, scanQuoted]
  generalize consumeUntil terminal escaped t.chars = split
  obtain ⟨run, rest⟩ := split
  cases rest with
  | nil => rfl
  | cons ch chars =>
    dsimp only
    split
    · simp only [Piece.read, Option.map_map]
      rfl
    · rfl

lemma parseWord_eq {first : Char} (hpos : 0 < t.pos) : t.parseWord line =
      ((t.scanWord first).1.read line).map (·, (t.scanWord first).2) := by
  have hstop (run : List Char) : t.pos - 1 + (first :: run).length = t.pos + run.length := by
    rw [length_cons]
    omega
  simp only [parseWord, scanWord, Piece.read, hstop, Option.map_map]
  refine congrArg (fun f => Option.map f _) (funext fun str => ?_)
  simp only [Function.comp_apply, Kind.token]
  split
  · rfl
  · simp

/-- `parse_token` scans and then slices. -/
lemma parseToken_eq (t : Tokenizer) :
    t.parseToken line = (t.scan.1.read line).map (·, t.scan.2) := by
  rw [parseToken, scan]
  generalize t.consumeWhile isWhitespace = t
  obtain ⟨chars, pos⟩ := t
  cases chars with
  | nil => rfl
  | cons ch chars =>
    dsimp only
    split
    · rfl
    split
    · rfl
    split
    · split <;> rfl
    split
    · exact parseQuoted_eq ..
    split
    · exact parseQuoted_eq ..
    · exact parseWord_eq (Nat.succ_pos _)

lemma items_succ (fuel : Nat) (t : Tokenizer) (hne : t.scan.1 ≠ .other (.ok .eof)) :
    t.items line (fuel + 1) =
      (t.scan.1.read line).bind fun item => (t.scan.2.items line fuel).map (item :: ·) := by
  rw [items, parseToken_eq]
  generalize t.scan = result at hne ⊢
  obtain ⟨piece, u⟩ := result
  cases hread : piece.read line with
  | none => rfl
  | some item =>
    have hitem : item ≠ .ok .eof := by
      rintro rfl
      cases piece with
      | other item => exact hne (congrArg _ (Option.some.inj hread))
      | text kind start run =>
        obtain ⟨str, -, heq⟩ := Option.map_eq_some_iff.mp hread
        exact kind.token_ne_eof str (Except.ok.inj heq)
    simp only [Option.map_some, Option.bind_some]

lemma pieces_succ (fuel : Nat) (t : Tokenizer) (hne : t.scan.1 ≠ .other (.ok .eof)) :
    t.pieces (fuel + 1) = t.scan.1 :: t.scan.2.pieces fuel := by
  rw [pieces]
  generalize t.scan = result at hne ⊢
  split
  · exact absurd rfl hne
  · rfl

lemma items_eq_iff {fuel : Nat} (ht : t.At line) (hfuel : t.chars.length < fuel) :
    t.items line fuel = some ((t.pieces fuel).map Piece.intended) ↔
      ∀ piece ∈ t.pieces fuel, piece.CutRight line := by
  induction fuel generalizing t with
  | zero => omega
  | succ fuel ih =>
    obtain ⟨hat, hshorter, -⟩ := scan_scans ht
    by_cases heof : t.scan.1 = .other (.ok .eof)
    · obtain ⟨u, hscan⟩ : ∃ u, t.scan = (.other (.ok .eof), u) := ⟨_, Prod.ext heof rfl⟩
      simp [items, pieces, parseToken_eq, hscan, Piece.read]
    · have hlen := hshorter.resolve_left heof
      rw [items_succ fuel t heof, pieces_succ fuel t heof, forall_mem_cons, map_cons,
        ← Piece.read_eq_iff, ← ih hat (by omega), Option.bind_eq_some_iff]
      simp only [Option.map_eq_some_iff, cons.injEq, exists_eq_right_right]

lemma pieces_run {fuel : Nat} (ht : t.At line) {kind : Kind} {start : Nat} {run : List Char}
    (h : .text kind start run ∈ t.pieces fuel) : (line.drop start).take run.length = run := by
  induction fuel generalizing t with
  | zero => cases h
  | succ fuel ih =>
    obtain ⟨hat, -, hrun⟩ := scan_scans ht
    by_cases heof : t.scan.1 = .other (.ok .eof)
    · rw [pieces, show t.scan = (.other (.ok .eof), t.scan.2) from Prod.ext heof rfl] at h
      cases h
    · rw [pieces_succ fuel t heof] at h
      obtain heq | h := mem_cons.mp h
      · exact hrun _ _ _ heq.symm
      · exact ih hat h

end Tokenizer

/-- The pieces of a line are runs of its characters.  Tokenizing the line does
not panic and gives these runs as texts exactly if each of them is ASCII and
stands behind as many bytes as there are characters in front of it. -/
theorem tokens_are_runs_iff (line : List Char) :
    (∀ kind start run, .text kind start run ∈ pieces line →
      (line.drop start).take run.length = run) ∧
    (tokenize line = some ((pieces line).map Piece.intended) ↔
      ∀ piece ∈ pieces line, piece.CutRight line) := by
  have hat : (⟨line, 0⟩ : Tokenizer).At line := ⟨[], rfl, rfl⟩
  exact ⟨fun _ _ _ h => Tokenizer.pieces_run hat h,
    Tokenizer.items_eq_iff hat (Nat.lt_succ_self _)⟩

/-- A word of one character of two bytes panics, and with a letter behind it
loses the letter. -/
theorem accented_word_sliced : tokenize ['\u00e9'] = none ∧
    tokenize ['\u00e9', 'a'] = some [.ok (.string ⟨['\u00e9'], false⟩)] := by
  decide +kernel

/-! ### Quoting -/

/-- The characters that `Display` of `EscapeStr` writes. -/
def unescape : List Char → List Char
  | [] => []
  | [ch] => if ch = backslash then [] else [ch]
  | ch :: next :: chars =>
    if ch ≠ backslash then ch :: unescape (next :: chars)
    else if next ∈ [singleQuote, doubleQuote, backslash] then next :: unescape chars
    else backslash :: unescape (next :: chars)

def EscapeStr.toEscapedString (s : EscapeStr) : List Char :=
  if s.needsEscape then unescape s.str else s.str

/-- A backslash before each double quote and each backslash. -/
def escape (s : List Char) : List Char :=
  s.flatMap fun ch => if ch = doubleQuote ∨ ch = backslash then [backslash, ch] else [ch]

def quoted (s : List Char) : List Char := doubleQuote :: (escape s ++ [doubleQuote])

lemma unescape_escape (s : List Char) : unescape (escape s) = s := by
  induction s with
  | nil => rfl
  | cons ch s ih =>
    rw [escape, flatMap_cons, ← escape]
    split
    · next h =>
      have hmem : ch ∈ [singleQuote, doubleQuote, backslash] := by simp [h]
      simp [unescape, hmem, ih]
    · next h =>
      have hplain : ch ≠ backslash := fun heq => h (.inr heq)
      cases hs : escape s with
      | nil =>
        rw [hs] at ih
        simp [unescape, hplain, ← ih]
      | cons next chars =>
        rw [hs] at ih
        simp [unescape, hplain, ih]

lemma escape_head_ne (h : s ≠ []) (tail : List Char) :
    ∃ ch rest, escape s ++ tail = ch :: rest ∧ ch ≠ doubleQuote := by
  obtain ⟨ch, s, rfl⟩ := exists_cons_of_ne_nil h
  rw [escape, flatMap_cons]
  split
  · exact ⟨backslash, _, rfl, by decide⟩
  · next h => exact ⟨ch, _, rfl, fun heq => h (.inl heq)⟩

namespace Tokenizer

lemma consumeUntil_cons {ch : Char} {chars : List Char} (hne : ch ≠ doubleQuote)
    (heof : ch ≠ eof) (hnext : ch = backslash → chars.head? ≠ some doubleQuote) :
    consumeUntil doubleQuote true (ch :: chars) = (ch :: (consumeUntil doubleQuote true chars).1,
        (consumeUntil doubleQuote true chars).2) := by
  cases chars with
  | nil => simp [consumeUntil, hne, heof]
  | cons next chars =>
    have hescape : ¬(ch = backslash ∧ next = doubleQuote) := fun h => hnext h.1 (congrArg some h.2)
    simp [consumeUntil, hne, heof, hescape]

/-- The scanner passes an escaped character, unless it is a backslash at the
end of the text: that one seems to escape what follows. -/
lemma consumeUntil_escape_cons {ch : Char} {s : List Char} (heof : ch ≠ eof)
    (h : ch = backslash → s ≠ []) (tail : List Char) :
    consumeUntil doubleQuote true (escape (ch :: s) ++ tail) =
      (escape [ch] ++ (consumeUntil doubleQuote true (escape s ++ tail)).1,
        (consumeUntil doubleQuote true (escape s ++ tail)).2) := by
  rw [escape, flatMap_cons, append_assoc, ← escape]
  by_cases hquote : ch = doubleQuote
  · subst hquote
    rfl
  by_cases hback : ch = backslash
  · subst hback
    obtain ⟨next, rest, hnext, hne⟩ := escape_head_ne (h rfl) tail
    rw [hnext]
    refine (consumeUntil_cons (by decide) (by decide) fun _ => by simp [hquote]).trans ?_
    exact congrArg (fun r : List Char × List Char => (backslash :: r.1, r.2))
      (consumeUntil_cons (by decide) (by decide) fun _ => by simpa using hne)
  · simp only [escape, flatMap_cons, flatMap_nil, hquote, hback, or_self, ↓reduceIte]
    exact consumeUntil_cons hquote heof (absurd · hback)

lemma consumeUntil_escape {s : List Char} (hs : ∀ ch ∈ s, ch ≠ eof) :
    consumeUntil doubleQuote true (escape s ++ [doubleQuote]) =
      if s.getLast? = some backslash then (escape s ++ [doubleQuote], [])
      else (escape s, [doubleQuote]) := by
  induction s with
  | nil => rfl
  | cons ch s ih =>
    obtain ⟨heof, hs⟩ := forall_mem_cons.mp hs
    by_cases hlast : ch = backslash ∧ s = []
    · obtain ⟨rfl, rfl⟩ := hlast
      rfl
    · have hsame : (ch :: s).getLast? = some backslash ↔ s.getLast? = some backslash := by
        cases s with
        | nil => simpa using hlast
        | cons next s => rw [getLast?_cons_cons]
      have hcons : escape (ch :: s) = escape [ch] ++ escape s := by simp [escape]
      rw [consumeUntil_escape_cons heof (fun hch hnil => hlast ⟨hch, hnil⟩), ih hs, hcons]
      simp only [hsame]
      split
      · rw [append_assoc]
      · rfl

end Tokenizer

lemma quoted_ascii {s : List Char} (h : Ascii s) : Ascii (quoted s) := by
  have hescape : Ascii (escape s) := by
    intro ch hch
    obtain ⟨c, hc, hmem⟩ := mem_flatMap.mp hch
    split at hmem
    · obtain rfl | hmem := mem_cons.mp hmem
      · decide
      · exact mem_singleton.mp hmem ▸ h c hc
    · exact mem_singleton.mp hmem ▸ h c hc
  refine forall_mem_cons.mpr ⟨by decide, forall_mem_append.mpr ⟨hescape, ?_⟩⟩
  exact forall_mem_singleton.mpr (by decide)

/-- A quoted text is read back exactly if it does not end in a backslash. -/
theorem quoting_round_trip_iff (s : List Char) (h : ∀ ch ∈ s, ch ≠ eof ∧ ch.toNat < 128) :
    (∃ str, tokenize (quoted s) = some [.ok (.string str)] ∧ str.toEscapedString = s) ↔
      s.getLast? ≠ some backslash := by
  have hfirst : Tokenizer.parseToken (quoted s) ⟨quoted s, 0⟩ =
      Tokenizer.parseQuoted (quoted s) ⟨escape s ++ [doubleQuote], 1⟩ doubleQuote true := rfl
  have hscan := Tokenizer.consumeUntil_escape fun ch hch => (h ch hch).1
  have hslice := Tokenizer.At.slice (t := ⟨escape s ++ [doubleQuote], 1⟩)
    (quoted_ascii fun ch hch => (h ch hch).2) ⟨[doubleQuote], rfl, rfl⟩ rfl
  have hlen : (quoted s).length = (escape s).length + 2 := by simp [quoted]
  rw [Tokenizer.parseQuoted, hscan] at hfirst
  rw [tokenize, hlen, Tokenizer.items, hfirst]
  by_cases hlast : s.getLast? = some backslash
  · -- the closing quote is swallowed
    simp only [hlast, ↓reduceIte]
    refine iff_of_false ?_ (not_not_intro rfl)
    rintro ⟨str, hitems, _⟩
    simp [Tokenizer.items, Tokenizer.parseToken, Tokenizer.consumeWhile, Tokenizer.advance]
      at hitems
  · simp only [hlast, ↓reduceIte, hslice, Option.map_some]
    refine iff_of_true ⟨⟨escape s, true⟩, ?_, unescape_escape s⟩ hlast
    simp [Tokenizer.items, Tokenizer.parseToken, Tokenizer.consumeWhile, Tokenizer.advance]

theorem quoting_round_trip_a_quote : ∃ str,
    tokenize (quoted ['a', doubleQuote]) = some [.ok (.string str)] ∧
      str.toEscapedString = ['a', doubleQuote] :=
  (quoting_round_trip_iff ['a', doubleQuote] (by simp [eof, doubleQuote])).mpr (by decide)

/-- The closing quote behind an escaped backslash seems to be escaped. -/
theorem quoted_backslash_unterminated : tokenize (quoted [backslash]) = some [.error eof] := by
  decide +kernel

end Redwing.Shell
