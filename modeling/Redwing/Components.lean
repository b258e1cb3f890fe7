/-
The double-ended iterator over the components of a path
(`common/path/src/lib.rs`).  Its two cursors enclose a slice of the bytes, and
each call reads one piece at an end of that slice.  The loops over the bytes
stop where `takeWhile` and `rdropWhile` do.
-/
import Mathlib
import Redwing.Mount

namespace Redwing.Mounts

open List

abbrev slash : UInt8 := 47

/-! ## Pieces of a slice -/

/-- What the pieces of a slice that starts behind the first byte denote. -/
def later (r : List UInt8) : List Component := (segments r).filterMap laterComponent

def parsed (front : Nat) (r : List UInt8) : List Component :=
  if front = 0 then components r else later r

/-- The `match` of `next` and `next_back`, `none` where they go on. -/
def component (start : Nat) (piece : List UInt8) : Option Component :=
  if start = 0 then some (firstComponent piece) else laterComponent piece

def afterFirst (r : List UInt8) : List UInt8 := r.drop ((r.takeWhile (· != slash)).length + 1)

def trimmed (r : List UInt8) : List UInt8 := r.rdropWhile (· == slash)

def beforeLast (r : List UInt8) : List UInt8 := (trimmed r).rdropWhile (· != slash)

variable {r w : List UInt8}

lemma segments_append : segments (x ++ slash :: y) = segments x ++ segments y := by
  induction x with
  | nil => simp [segments]
  | cons byte x ih =>
    rw [cons_append, segments, segments, ih]
    split
    · rfl
    · cases hx : segments x with
      | nil => cases x <;> grind [segments]
      | cons => rfl

lemma segments_of_noSlash (h : slash ∉ w) : segments w = [w] := by
  induction w with
  | nil => rfl
  | cons byte w ih =>
    rw [mem_cons, not_or] at h
    rw [segments, if_neg (Ne.symm h.1), ih h.2]

lemma segments_ne_nil (r : List UInt8) : segments r ≠ [] := by cases r <;> grind [segments]

lemma components_of_ne_nil (h : r ≠ []) : ∃ first rest, segments r = first :: rest ∧
    components r = firstComponent first :: rest.filterMap laterComponent := by
  obtain ⟨first, rest, heq⟩ := exists_cons_of_ne_nil (segments_ne_nil r)
  exact ⟨first, rest, heq, by simp [components, h, heq]⟩

lemma later_append : later (x ++ slash :: y) = later x ++ later y := by
  simp [later, segments_append]

lemma components_append (h : x ≠ []) : components (x ++ slash :: y) = components x ++ later y := by
  obtain ⟨first, rest, heq, hx⟩ := components_of_ne_nil h
  rw [hx, components, if_neg (by simp), segments_append, heq]
  simp [later]

lemma parsed_append (h : front ≠ 0 ∨ x ≠ []) :
    parsed front (x ++ slash :: y) = parsed front x ++ later y := by
  by_cases hfront : front = 0
  · simpa [parsed, hfront] using components_append (by simpa [hfront] using h)
  · simpa [parsed, hfront] using later_append

@[simp]
lemma later_nil : later [] = [] := by decide

lemma parsed_nil (front : Nat) : parsed front [] = [] := by simp [parsed, components]

lemma components_slash : components (slash :: y) = .rootDir :: later y := by
  simp [components, segments, firstComponent, later]

lemma parsed_append_piece (front : Nat) : parsed front (x ++ slash :: y) =
    parsed front (x ++ [slash]) ++ later y := by
  by_cases hstart : front = 0 ∧ x = []
  · simp [hstart, parsed, components_slash]
  · rw [parsed_append (by tauto), parsed_append (by tauto), later_nil, append_nil]

lemma later_of_noSlash (h : slash ∉ w) : later w = (laterComponent w).toList := by
  rw [later, segments_of_noSlash h]
  cases hw : laterComponent w <;> simp [hw]

lemma parsed_of_noSlash (h : slash ∉ w) (hne : front ≠ 0 ∨ w ≠ []) :
    parsed front w = (component front w).toList := by
  by_cases hfront : front = 0
  · have hw : w ≠ [] := by simpa [hfront] using hne
    simp [parsed, component, hfront, components, hw, segments_of_noSlash h]
  · simp [parsed, component, hfront, later_of_noSlash h]

lemma first_piece (r : List UInt8) : slash ∉ r ∧ r.takeWhile (· != slash) = r ∨
    ∃ w d, r = w ++ slash :: d ∧ slash ∉ w ∧ r.takeWhile (· != slash) = w := by
  by_cases hmem : slash ∈ r
  · obtain ⟨w, d, rfl, hw⟩ := eq_append_cons_of_mem hmem
    refine .inr ⟨w, d, rfl, hw, ?_⟩
    rw [takeWhile_append_of_pos (by grind)]
    simp
  · exact .inl ⟨hmem, takeWhile_eq_self_iff.mpr (by grind)⟩

lemma parsed_front (h : r ≠ []) :
    parsed front r = (component front (r.takeWhile (· != slash))).toList ++
      later (afterFirst r) := by
  rw [afterFirst]
  obtain ⟨hno, htake⟩ | ⟨w, d, rfl, hw, htake⟩ := first_piece r
  · rw [htake, drop_eq_nil_of_le (by omega), later_nil, append_nil, parsed_of_noSlash hno (.inr h)]
  have hdrop : (w ++ slash :: d).drop (w.length + 1) = d := by simp [drop_append]
  rw [htake, hdrop]
  by_cases hstart : front = 0 ∧ w = []
  · simpa [hstart, parsed, component, firstComponent] using components_slash
  · rw [parsed_append (by tauto), parsed_of_noSlash hw (by tauto)]

lemma parsed_back (h : r ≠ []) :
    parsed front r = parsed front (beforeLast r) ++ (component (front + (beforeLast r).length)
        ((trimmed r).rtakeWhile (· != slash))).toList := by
  induction r using reverseRecOn with
  | nil => exact absurd rfl h
  | append_singleton r byte ih =>
    by_cases hbyte : byte = slash
    · subst hbyte
      have htrim : trimmed (r ++ [slash]) = trimmed r := rdropWhile_concat_pos _ _ _ rfl
      by_cases hr : r = []
      · subst hr
        have hstart : beforeLast [slash] = [] := by decide
        have hpiece : (trimmed [slash]).rtakeWhile (· != slash) = [] := by decide
        rw [nil_append, hstart, hpiece, parsed_nil]
        by_cases hfront : front = 0
        · subst hfront
          decide
        · rw [← nil_append [slash], parsed_append (.inl hfront)]
          simp [parsed_nil, component, hfront, laterComponent]
      · rw [beforeLast, htrim, ← beforeLast, ← ih hr,
          parsed_append (.inr hr), later_nil, append_nil]
    have htrim : trimmed (r ++ [byte]) = r ++ [byte] :=
      rdropWhile_concat_neg _ _ _ (by simpa using hbyte)
    rw [beforeLast, htrim]
    generalize r ++ [byte] = r at *
    have hsplit := rdropWhile_append_rtakeWhile (p := (· != slash)) (l := r)
    have hlast := rdropWhile_last_not (· != slash) r
    have hno : slash ∉ r.rtakeWhile (· != slash) := fun hmem => by
      simpa using mem_rtakeWhile_imp hmem
    generalize r.rdropWhile (· != slash) = b, r.rtakeWhile (· != slash) = w at *
    subst hsplit
    cases b using reverseRecOn with
    | nil => simpa [parsed_nil] using parsed_of_noSlash hno (.inr h)
    | append_singleton b last =>
      have hslash : last = slash := by simpa using hlast (by simp)
      subst hslash
      rw [append_assoc, singleton_append, parsed_append_piece, later_of_noSlash hno]
      simp [component]

/-! ## The iterator -/

structure Components where
  buf : List UInt8
  front : Nat
  back : Nat
  front_le : front ≤ back
  back_le : back ≤ buf.length

namespace Components

def slice (c : Components) (i j : Nat) : List UInt8 := (c.buf.take j).drop i

def between (c : Components) : List UInt8 := c.slice c.front c.back

variable (c : Components)

lemma length_between : c.between.length = c.back - c.front := by
  simp [between, slice, Nat.min_eq_left c.back_le]

lemma front_le_length (path : List UInt8) : 0 ≤ path.length := Nat.zero_le _

def new (path : List UInt8) : Components where
  buf := path
  front := 0
  back := path.length
  front_le := front_le_length path
  back_le := le_rfl

lemma slice_drop (i j k : Nat) : c.slice (i + k) j = (c.slice i j).drop k := by simp [slice]

lemma slice_take {i j k : Nat} (h : i + k ≤ j) : c.slice i (i + k) = (c.slice i j).take k := by
  rw [slice, slice, take_drop, take_take, Nat.min_eq_left h]

def pieceEnd (c : Components) : Nat := c.front + (c.between.takeWhile (· != slash)).length

lemma pieceEnd_le : c.pieceEnd ≤ c.back := by
  have hle := ( takeWhile_prefix (· != slash) (l := c.between)).length_le
  have hlen := c.length_between
  have hfront := c.front_le
  rw [pieceEnd]
  omega

def advance (c : Components) : Components where
  buf := c.buf
  front :=
    if c.pieceEnd < c.back ∧ c.buf[c.pieceEnd]? = some slash then c.pieceEnd + 1
    else c.pieceEnd
  back := c.back
  front_le := by
    have hle := c.pieceEnd_le
    split <;> omega
  back_le := c.back_le

def pieceStart (c : Components) : Nat := c.front + (beforeLast c.between).length

lemma beforeLast_isPrefixOf (r : List UInt8) : beforeLast r <+: r :=
  ( rdropWhile_prefix _ _).trans ( rdropWhile_prefix _ _)

def retreat (c : Components) : Components where
  buf := c.buf
  front := c.front
  back := c.pieceStart
  front_le := Nat.le_add_right _ _
  back_le := by
    have hle := (beforeLast_isPrefixOf c.between).length_le
    have hlen := c.length_between
    have hfront := c.front_le
    have hback := c.back_le
    rw [pieceStart]
    omega

lemma between_advance : c.advance.between = afterFirst c.between := by
  have hle := c.pieceEnd_le
  have hlen := c.length_between
  have hget : ∀ k, c.front + k < c.back → c.buf[c.front + k]? = c.between[k]? := by
    intro k hk
    simp [between, slice, hk]
  change c.slice (ite _ _ _) c.back = _
  split
  · rw [pieceEnd, Nat.add_assoc, slice_drop]
    rfl
  rename_i hstop
  rw [pieceEnd] at hle hstop ⊢
  rw [afterFirst, slice_drop, ← between]
  obtain ⟨-, htake⟩ | ⟨w, d, heq, -, htake⟩ := first_piece c.between
  · rw [htake, drop_length, drop_eq_nil_of_le (by omega)]
  · rw [heq, length_append, length_cons] at hlen
    rw [htake, hget _ (by omega), heq] at hstop
    simp at hstop
    omega

lemma between_retreat : c.retreat.between = beforeLast c.between := by
  have hle := (beforeLast_isPrefixOf c.between).length_le
  have hlen := c.length_between
  have hfront := c.front_le
  change c.slice c.front c.pieceStart = _
  rw [pieceStart, c.slice_take (by omega : _ ≤ c.back)]
  exact (prefix_iff_eq_take.mp (beforeLast_isPrefixOf c.between)).symm

lemma length_afterFirst_lt (h : r ≠ []) : (afterFirst r).length < r.length := by
  have hpos := length_pos_iff.mpr h
  rw [afterFirst, length_drop]
  omega

lemma length_beforeLast_lt (h : r ≠ []) : (beforeLast r).length < r.length := by
  by_contra hge
  have hlast := ( rdropWhile_prefix (· != slash) (trimmed r)).length_le
  have htrim := rdropWhile_prefix (· == slash) r
  have hlen := htrim.length_le
  rw [← beforeLast] at hlast
  rw [← trimmed] at hlen htrim
  have heq : trimmed r = r := htrim.eq_of_length (by omega)
  have hpiece := (beforeLast_isPrefixOf r).eq_of_length (by omega)
  rw [beforeLast, heq] at hpiece
  have hslash := rdropWhile_eq_self_iff.mp hpiece h
  have hnot := rdropWhile_eq_self_iff.mp heq h
  simp at hslash hnot
  exact hnot hslash

lemma between_ne_nil {c : Components} (h : ¬c.front = c.back) : c.between ≠ [] := by
  have hlen := c.length_between
  have hfront := c.front_le
  rw [← length_pos_iff]
  omega

def next (c : Components) : Option Component × Components :=
  if h : c.front = c.back then (none, c)
  else
    match component c.front (c.slice c.front c.pieceEnd) with
    | some comp => (some comp, c.advance)
    | none => c.advance.next
termination_by c.between.length
decreasing_by
  rw [between_advance]
  exact length_afterFirst_lt (between_ne_nil h)

def nextBack (c : Components) : Option Component × Components :=
  if h : c.front = c.back then (none, c)
  else
    let trimmedEnd := c.front + (trimmed c.between).length
    match component c.pieceStart (c.slice c.pieceStart trimmedEnd) with
    | some comp => (some comp, c.retreat)
    | none => c.retreat.nextBack
termination_by c.between.length
decreasing_by
  rw [between_retreat]
  exact length_beforeLast_lt (between_ne_nil h)

def remaining (c : Components) : List Component := parsed c.front c.between

lemma lt_front_advance {c : Components} (h : ¬c.front = c.back) : c.front < c.advance.front := by
  have hlt := length_afterFirst_lt (between_ne_nil h)
  rw [← between_advance, length_between, length_between] at hlt
  have hback : c.advance.back = c.back := rfl
  omega

lemma remaining_advance {c : Components} (h : ¬c.front = c.back) : c.remaining =
    (component c.front (c.slice c.front c.pieceEnd)).toList ++
      c.advance.remaining := by
  have hpiece : c.slice c.front c.pieceEnd = c.between.takeWhile (· != slash) := by
    rw [pieceEnd, c.slice_take c.pieceEnd_le]
    exact (prefix_iff_eq_take.mp ( takeWhile_prefix _)).symm
  have hfront := lt_front_advance h
  rw [remaining, parsed_front (between_ne_nil h), hpiece, remaining,
    between_advance, parsed, if_neg (by omega)]

lemma remaining_retreat {c : Components} (h : ¬c.front = c.back) :
    c.remaining = c.retreat.remaining ++ (component c.pieceStart
      (c.slice c.pieceStart (c.front + (trimmed c.between).length))).toList := by
  have htrim := rdropWhile_prefix (· == slash) c.between
  have hpiece : c.slice c.pieceStart (c.front + (trimmed c.between).length) =
      (trimmed c.between).rtakeWhile (· != slash) := by
    have hle := htrim.length_le
    have hlen := c.length_between
    have hfront := c.front_le
    rw [← trimmed] at hle htrim
    rw [pieceStart, slice_drop, c.slice_take (by omega : _ ≤ c.back), ← between,
      ← prefix_iff_eq_take.mp htrim]
    conv_lhs => rw [← rdropWhile_append_rtakeWhile (p := (· != slash)) (l := trimmed c.between)]
    exact drop_left
  rw [remaining, parsed_back (between_ne_nil h), hpiece, remaining, between_retreat]
  rfl

lemma remaining_of_eq {c : Components} (h : c.front = c.back) : c.remaining = [] := by
  have hlen := c.length_between
  rw [remaining, length_eq_zero_iff.mp (by omega : c.between.length = 0), parsed_nil]

lemma next_spec : c.remaining = c.next.1.toList ++ c.next.2.remaining ∧
    (c.next.1 = none → c.next.2.remaining = []) := by
  fun_induction next c with
  | case1 c h => exact ⟨rfl, fun _ => remaining_of_eq h⟩
  | case2 c h comp hcomp =>
    refine ⟨?_, by simp⟩
    rw [remaining_advance h, hcomp]
  | case3 c h hcomp ih =>
    rw [remaining_advance h, hcomp]
    exact ih

lemma nextBack_spec : c.remaining = c.nextBack.2.remaining ++ c.nextBack.1.toList ∧
    (c.nextBack.1 = none → c.nextBack.2.remaining = []) := by
  fun_induction nextBack c with
  | case1 c h => exact ⟨by simp, fun _ => remaining_of_eq h⟩
  | case2 c h trimmedEnd comp hcomp =>
    refine ⟨?_, by simp⟩
    rw [remaining_retreat h, hcomp]
  | case3 c h trimmedEnd hcomp ih =>
    rw [remaining_retreat h, hcomp, Option.toList_none, append_nil]
    exact ih

end Components

/-- The end of the iterator that a call reads. -/
inductive End
  | front
  | back
deriving DecidableEq

/-- What calls of `next` and of `next_back` yield, each in the order of the
calls, and the iterator that is left. -/
structure Yields where
  fronts : List Component
  backs : List Component
  rest : Components

def Components.run : List End → Components → Yields
  | [], c => ⟨[], [], c⟩
  | .front :: calls, c =>
    let (comp, c) := c.next
    let yields := c.run calls
    { yields with fronts := comp.toList ++ yields.fronts }
  | .back :: calls, c =>
    let (comp, c) := c.nextBack
    let yields := c.run calls
    { yields with backs := comp.toList ++ yields.backs }

namespace Components

lemma run_spec (calls : List End) (c : Components) :
    (c.run calls).fronts ++ (c.run calls).rest.remaining ++
      (c.run calls).backs.reverse = c.remaining := by
  induction calls generalizing c with
  | nil => simp [run]
  | cons call calls ih =>
    cases call with
    | front =>
      rw [c.next_spec.1, ← ih c.next.2]
      simp [run]
    | back =>
      rw [c.nextBack_spec.1, ← ih c.nextBack.2]
      simp only [run, append_assoc, reverse_append]
      cases c.nextBack.1 <;> rfl

lemma remaining_new (path : List UInt8) : (new path).remaining = components path := by
  simp [remaining, parsed, new, between, slice]

lemma next_eq_none_iff (c : Components) : c.next.1 = none ↔ c.remaining = [] := by
  obtain ⟨heq, hnone⟩ := c.next_spec
  constructor
  · intro h
    rw [heq, h, hnone h]
    rfl
  · intro h
    rw [h, eq_comm, append_eq_nil_iff] at heq
    exact Option.toList_eq_nil_iff.mp heq.1

lemma nextBack_eq_none_iff (c : Components) : c.nextBack.1 = none ↔ c.remaining = [] := by
  obtain ⟨heq, hnone⟩ := c.nextBack_spec
  constructor
  · intro h
    rw [heq, h, hnone h]
    rfl
  · intro h
    rw [h, eq_comm, append_eq_nil_iff] at heq
    exact Option.toList_eq_nil_iff.mp heq.2

/-- However calls of `next` and `next_back` alternate, each of them returns,
and they have nothing more to return exactly when the results of `next` and
the reversed ones of `next_back` are the components of the path. -/
theorem run_exhausted_iff (path : List UInt8) (calls : List End) :
    let yields := (new path).run calls
    (yields.rest.next.1 = none ↔ yields.fronts ++ yields.backs.reverse = components path) ∧
      (yields.rest.nextBack.1 = none ↔
        yields.fronts ++ yields.backs.reverse = components path) := by
  have hrun := run_spec calls (new path)
  rw [remaining_new] at hrun
  dsimp only
  rw [next_eq_none_iff, nextBack_eq_none_iff, and_self, ← hrun]
  simp

end Components
end Redwing.Mounts
