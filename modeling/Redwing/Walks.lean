/-
Loops over tables, without reference to what the tables hold: intervals of
keys cut along the blocks of a directory, loops that stop at the first error,
and how often a partial map takes a value.
-/
import Mathlib.Algebra.Order.BigOperators.Group.Finset
import Mathlib.Data.List.Range
import Mathlib.Tactic.Ring

namespace Walks

open List Finset

/-- The keys from `lo` up to, not including, `hi`. -/
def interval (lo hi : Nat) : List Nat := List.range' lo (hi - lo)

variable {hi lo : Nat}

@[simp] lemma mem_interval {key : Nat} : key ∈ interval lo hi ↔ lo ≤ key ∧ key < hi := by
  simp only [interval, mem_range'_1]
  omega

lemma interval_eq_nil (h : hi ≤ lo) : interval lo hi = [] := by
  simp [interval, Nat.sub_eq_zero_of_le h]

lemma interval_cons (h : lo < hi) : interval lo hi = lo :: interval (lo + 1) hi := by
  rw [interval, interval, show hi - lo = hi - (lo + 1) + 1 by omega, range'_succ]

lemma interval_append {mid : Nat} (hlo : lo ≤ mid) (hhi : mid ≤ hi) :
    interval lo mid ++ interval mid hi = interval lo hi := by
  have hsplit : range' lo (mid - lo) ++ range' (lo + (mid - lo)) (hi - mid) =
      range' lo (mid - lo + (hi - mid)) := range'_append_1
  rw [show lo + (mid - lo) = mid by omega, show mid - lo + (hi - mid) = hi - lo by omega] at hsplit
  exact hsplit

lemma interval_max (lo hi : Nat) : interval lo (max lo hi) = interval lo hi := by
  rcases Nat.le_total lo hi with h | h
  · rw [Nat.max_eq_right h]
  · rw [Nat.max_eq_left h, interval_eq_nil h, interval_eq_nil (Nat.le_refl lo)]

lemma interval_nodup (lo hi : Nat) : (interval lo hi).Nodup := nodup_range'

lemma interval_pairwise (lo hi : Nat) : (interval lo hi).Pairwise (· < ·) := pairwise_lt_range'

/-- The keys before and after one key of an interval. -/
lemma interval_split {key : Nat} {before after : List Nat}
    (h : interval lo hi = before ++ key :: after) :
    lo ≤ key ∧ key < hi ∧ key = lo + before.length := by
  have hmem : key ∈ interval lo hi := by simp [h]
  have hget : (interval lo hi)[before.length]? = some key := by simp [h]
  rw [interval, getElem?_range' (by
    have hlen := congrArg length h
    simp only [interval, length_range', length_append, length_cons] at hlen
    omega)] at hget
  rw [mem_interval] at hmem
  simp only [Option.some.injEq] at hget
  omega

/-- A directory whose entry `i` covers the `width` keys from
`base + i * width` on: the parts of `[lo, hi)` under the entries from `a` to
`b`, one after the other, are the part under all of them. -/
lemma flatMap_interval {width base a b : Nat} (hab : a ≤ b) : ((interval a b).flatMap fun i =>
      interval (max lo (base + i * width)) (min hi (base + (i + 1) * width))) =
    interval (max lo (base + a * width)) (min hi (base + b * width)) := by
  induction b, hab using Nat.le_induction with
  | base =>
    rw [interval_eq_nil (le_refl a), flatMap_nil, interval_eq_nil]
    omega
  | succ b hab ih =>
    have hle : base + a * width ≤ base + b * width :=
      Nat.add_le_add_left (Nat.mul_le_mul_right width hab) base
    have hnext : base + (b + 1) * width = base + b * width + width := by ring
    rw [← interval_append hab (Nat.le_succ b), flatMap_append, ih,
      show interval b (b + 1) = [b] by simp [interval],
      flatMap_cons, flatMap_nil, append_nil, hnext]
    -- either the cut at entry `b` falls inside `[lo, hi)`, or one of the
    -- two halves is empty
    by_cases hlow : base + b * width ≤ lo
    · rw [interval_eq_nil (by omega), nil_append]
      congr 1
      omega
    by_cases hhigh : hi ≤ base + b * width
    · have hnil : interval (max lo (base + b * width)) (min hi (base + b * width + width)) = [] :=
        interval_eq_nil (by omega)
      rw [hnil, append_nil]
      congr 1
      omega
    · rw [show min hi (base + b * width) = base + b * width by omega,
        show max lo (base + b * width) = base + b * width by omega]
      exact interval_append (by omega) (by omega)

section

variable {α σ ε : Type*}

/-- Run `body` on the elements in order and stop at the first error.  `none`
is a run that does not come back. -/
def tryEach (body : α → σ → Option (σ × Except ε Unit)) : List α → σ → Option (σ × Except ε Unit)
  | [], s => some (s, .ok ())
  | a :: rest, s =>
    match body a s with
    | none => none
    | some (t, .error e) => some (t, .error e)
    | some (t, .ok ()) => tryEach body rest t

/-- Go on with a result, unless it is an error. -/
def andThen {β γ : Type*} (r : Option (σ × Except ε β))
    (next : β → σ → Option (σ × Except ε γ)) : Option (σ × Except ε γ) :=
  match r with
  | none => none
  | some (s, .error e) => some (s, .error e)
  | some (s, .ok x) => next x s

lemma andThen_ok {β γ : Type*} (s : σ) (x : β) (next : β → σ → Option (σ × Except ε γ)) :
    andThen (some (s, .ok x)) next = next x s := rfl

/-- Both parts of a successful run succeed. -/
lemma andThen_eq_ok {β γ : Type*} {r : Option (σ × Except ε β)}
    {next : β → σ → Option (σ × Except ε γ)} {t : σ} {y : γ}
    (h : andThen r next = some (t, .ok y)) :
    ∃ s x, r = some (s, .ok x) ∧ next x s = some (t, .ok y) := by
  match r, h with
  | some (s, .ok x), h => exact ⟨s, x, rfl, h⟩

/-- What holds of a state and a result: one condition on success, one on
failure. -/
def Outcome (good : σ → Prop) (bad : σ → ε → Prop) : σ × Except ε Unit → Prop
  | (s, .ok ()) => good s
  | (s, .error e) => bad s e

/-- The rule for a loop that stops at the first error: the invariant speaks
about the elements done so far. -/
lemma tryEach_outcome {body : α → σ → Option (σ × Except ε Unit)}
    (inv : List α → σ → Prop) (bad : σ → ε → Prop) {l : List α}
    (hstep : ∀ before a after s out, l = before ++ a :: after → inv before s → body a s = some out →
      Outcome (inv (before ++ [a])) bad out)
    {s : σ} (hstart : inv [] s) {out : σ × Except ε Unit}
    (hrun : tryEach body l s = some out) : Outcome (inv l) bad out := by
  suffices hgen : ∀ before after s, l = before ++ after → inv before s →
      tryEach body after s = some out → Outcome (inv l) bad out from
    hgen [] l s rfl hstart hrun
  intro before after
  induction after generalizing before with
  | nil =>
    intro s hsplit hinv hrun
    simp only [tryEach, Option.some.injEq] at hrun
    rw [append_nil] at hsplit
    subst hrun hsplit
    exact hinv
  | cons a rest ih =>
    intro s hsplit hinv hrun
    rw [tryEach] at hrun
    cases hbody : body a s with
    | none => rw [hbody] at hrun; cases hrun
    | some next =>
      have hout := hstep before a rest s next hsplit hinv hbody
      obtain ⟨t, result⟩ := next
      cases result with
      | error e =>
        rw [hbody] at hrun
        cases hrun
        exact hout
      | ok =>
        rw [hbody] at hrun
        exact ih (before ++ [a]) t (by simp [hsplit]) hout hrun

/-- What every round keeps, the loop keeps. -/
lemma tryEach_invariant {body : α → σ → Option (σ × Except ε Unit)} {P : σ → Prop} {l : List α}
    (hstep : ∀ a ∈ l, ∀ s out, P s → body a s = some out → P out.1) {s : σ} (hs : P s)
    {out : σ × Except ε Unit} (hrun : tryEach body l s = some out) : P out.1 := by
  have hout := tryEach_outcome (fun _ => P) (fun s _ => P s)
    (fun before a after s out hsplit hs hbody => by
      have hnext := hstep a (by simp [hsplit]) s out hs hbody
      obtain ⟨t, result⟩ := out
      cases result <;> exact hnext) hs hrun
  obtain ⟨t, result⟩ := out
  cases result <;> exact hout

/-- A loop comes back when its body does in every state that the rounds before
lead to. -/
lemma tryEach_isSome {body : α → σ → Option (σ × Except ε Unit)}
    (inv : List α → σ → Prop) {l : List α}
    (hbody : ∀ before a after s, l = before ++ a :: after → inv before s → (body a s).isSome)
    (hstep : ∀ before a after s t, l = before ++ a :: after → inv before s →
      body a s = some (t, .ok ()) → inv (before ++ [a]) t)
    {s : σ} (hstart : inv [] s) : (tryEach body l s).isSome := by
  suffices hgen : ∀ before after s, l = before ++ after → inv before s →
      (tryEach body after s).isSome from hgen [] l s rfl hstart
  intro before after
  induction after generalizing before with
  | nil => exact fun _ _ _ => rfl
  | cons a rest ih =>
    intro s hsplit hinv
    obtain ⟨⟨t, result⟩, hrun⟩ := Option.isSome_iff_exists.mp (hbody before a rest s hsplit hinv)
    cases result with
    | error e => simp [tryEach, hrun]
    | ok =>
      simp only [tryEach, hrun]
      exact ih (before ++ [a]) t (by simp [hsplit]) (hstep before a rest s t hsplit hinv hrun)

/-- Going on after the first rounds. -/
lemma tryEach_append {body : α → σ → Option (σ × Except ε Unit)}
    {l l' : List α} {s t : σ} (hrun : tryEach body l s = some (t, .ok ())) :
    tryEach body (l ++ l') s = tryEach body l' t := by
  induction l generalizing s with
  | nil =>
    cases hrun
    rfl
  | cons a rest ih =>
    rw [tryEach] at hrun
    rw [cons_append, tryEach]
    split at hrun
    · cases hrun
    · cases hrun
    · exact ih hrun

/-- A loop succeeds when every round does. -/
lemma tryEach_ok {body : α → σ → Option (σ × Except ε Unit)}
    (inv : List α → σ → Prop) {good : σ → Prop} {l : List α}
    (hstep : ∀ before a after s, l = before ++ a :: after → inv before s →
      ∃ t, body a s = some (t, .ok ()) ∧ inv (before ++ [a]) t)
    {s : σ} (hstart : inv [] s) (hgood : ∀ t, inv l t → good t) :
    ∃ t, tryEach body l s = some (t, .ok ()) ∧ good t := by
  suffices hgen : ∀ before after s, l = before ++ after → inv before s →
      ∃ t, tryEach body after s = some (t, .ok ()) ∧ inv l t by
    obtain ⟨t, hrun, hinv⟩ := hgen [] l s rfl hstart
    exact ⟨t, hrun, hgood t hinv⟩
  intro before after
  induction after generalizing before with
  | nil =>
    intro s hsplit hinv
    rw [append_nil] at hsplit
    exact ⟨s, rfl, hsplit ▸ hinv⟩
  | cons a rest ih =>
    intro s hsplit hinv
    obtain ⟨t, hbody, hnext⟩ := hstep before a rest s hsplit hinv
    simp only [tryEach, hbody]
    exact ih (before ++ [a]) t (by simp [hsplit]) hnext

end

section

/-- How many keys below `n` the partial map sends to `value`. -/
def occurrences (n : Nat) (f : Nat → Option Nat) (value : Nat) : Nat :=
  ∑ key ∈ Finset.range n, if f key = some value then 1 else 0

variable {key n value : Nat}

/-- Changing the map at one key. -/
lemma occurrences_change (hkey : key < n) {f g : Nat → Option Nat}
    (hother : ∀ k, k ≠ key → g k = f k) (value : Nat) :
    occurrences n g value + (if f key = some value then 1 else 0) =
      occurrences n f value + (if g key = some value then 1 else 0) := by
  have hmem : key ∈ Finset.range n := Finset.mem_range.mpr hkey
  rw [occurrences, occurrences, ← Finset.add_sum_erase _ _ hmem,
    ← Finset.add_sum_erase (a := key) _ _ hmem]
  have hrest : ∑ k ∈ (Finset.range n).erase key, (if g k = some value then 1 else 0) =
      ∑ k ∈ (Finset.range n).erase key, (if f k = some value then 1 else 0) := by
    apply Finset.sum_congr rfl
    intro k hk
    rw [hother k (ne_of_mem_erase hk)]
  omega

lemma occurrences_pos (hkey : key < n) {f : Nat → Option Nat} (h : f key = some value) :
    0 < occurrences n f value := by
  apply sum_pos'
  · intro k _
    exact Nat.zero_le _
  · exact ⟨key, Finset.mem_range.mpr hkey, by simp [h]⟩

lemma two_le_occurrences {key' : Nat} (hkey : key < n) (hkey' : key' < n) (hne : key ≠ key')
    {f : Nat → Option Nat} (h : f key = some value) (h' : f key' = some value) :
    2 ≤ occurrences n f value := by
  have hsub : {key, key'} ⊆ Finset.range n := by
    intro k hk
    rcases Finset.mem_insert.mp hk with rfl | hk
    · exact Finset.mem_range.mpr hkey
    · exact Finset.mem_range.mpr (Finset.mem_singleton.mp hk ▸ hkey')
  have hpair : ∑ k ∈ {key, key'}, (if f k = some value then 1 else 0) = 2 := by
    rw [sum_pair hne, if_pos h, if_pos h']
  rw [← hpair]
  exact sum_le_sum_of_subset hsub

lemma occurrences_eq_zero {f : Nat → Option Nat} (h : ∀ key, key < n → f key ≠ some value) :
    occurrences n f value = 0 := by
  apply Finset.sum_eq_zero
  intro key hkey
  rw [if_neg (h key (Finset.mem_range.mp hkey))]

end
end Walks
